import TokenAuthority.Proofs.Authenticator.Fate
import TokenAuthority.Proofs.KeyFile.Ring

/-!
# Restarts

An authenticator serves requests, and another one is made with the key file that it leaves.
The newest key of the first is the only one of the second if both are for one algorithm, and
else the second has a fresh key. So of the tokens of the first, those signed with its newest
key are good with the second until they expire, and all others are unknown.
-/

namespace TokenAuthority

/-- A key that is read back from its document as it was, and whose signatures are good. -/
structure SigningKey.Faithful (k : SigningKey) : Prop where
  readsBack : k.material.ReadsBack
  onClock : k.created.OnClock
  signs : ∀ message signature, k.material.sign k.algorithm message = .ok signature →
    k.material.verify k.algorithm message signature = .ok true

namespace TokenAuthenticator

/-! ### Sessions -/

/-- An authenticator is made and serves requests. The result is the responses, and the
authenticator at the end. -/
def session {m : Type → Type} [Monad m] (s : Surroundings m) (store : KeyStore m)
    (c : CheckedSettings) (requests : List Request) :
    m (Except AuthError (List Response × TokenAuthenticator)) := do
  match ← start s store c with
  | .error e => return .error e
  | .ok t => return .ok (← t.run s store requests)

section

variable {σ : Type} {s : Surroundings (StateM σ)} {store : KeyStore (StateM σ)}

variable (s store) in
/-- The keys that are activated in a session. -/
def sessionKeys (c : CheckedSettings) (requests : List Request) (w : σ) : List SigningKey :=
  ((session s.recorded store.recorded c requests).run ⟨w, []⟩).2.ledger.activated

theorem session_eq_ok_iff {c : CheckedSettings} {requests : List Request} {w w' : σ}
    {answers : List Response} {t : TokenAuthenticator} :
    (session s store c requests).run w = (.ok (answers, t), w') ↔
      ∃ t₀ w₀, (start s store c).run w = (.ok t₀, w₀) ∧
        (t₀.run s store requests).run w₀ = ((answers, t), w') := by
  rw [session]
  cases hstart : (start s store c).run w with
  | mk made w₀ =>
    rw [run_bind_of_run_eq hstart]
    cases made with
    | error e =>
        constructor
        · intro h
          cases h
        · rintro ⟨t₀, w₁, h, -⟩
          cases h
    | ok t₀ =>
        dsimp only
        cases hrun : (t₀.run s store requests).run w₀ with
        | mk outcome w₁ =>
          rw [run_bind_of_run_eq hrun]
          constructor
          · intro h
            cases h
            exact ⟨t₀, w₀, rfl, hrun⟩
          · rintro ⟨t₁, w₂, h, h'⟩
            cases h
            cases hrun.symm.trans h'
            rfl

/-- The session in which nothing is asked. -/
theorem session_nil {c : CheckedSettings} {t : TokenAuthenticator} {w w' : σ}
    (h : (start s store c).run w = (.ok t, w')) :
    (session s store c []).run w = (.ok ([], t), w') :=
  session_eq_ok_iff.mpr ⟨t, w', h, rfl⟩

variable (s store) in
theorem erases_session (c : CheckedSettings) (requests : List Request) :
    Recorded.Erases (session s.recorded store.recorded c requests)
      (session s store c requests) := by
  refine (erases_start s store c).bind ?_
  intro made
  cases made with
  | error e => exact .pure _
  | ok t => exact (erases_run s store requests t).bind fun _ => .pure _

variable (s store) in
/-- Every token that is issued in a run is one of a key that is activated. -/
theorem exists_issue_of_mem (requests : List Request) {t : TokenAuthenticator} {w : Recorded σ}
    (hr : Stocked t.ring w.ledger) (principal : String) (token : IssuedToken) :
    (Request.issue principal, Response.issued (.ok token)) ∈
        requests.zip ((t.run s.recorded store.recorded requests).run w).1.1 →
      ∃ k ∈ ((t.run s.recorded store.recorded requests).run w).2.ledger.activated, k.id ≠ "" ∧
        ∃ now lifetime, IssuedToken.issue k principal now lifetime = .ok token := by
  intro h
  induction requests generalizing t w with
  | nil => cases h
  | cons request requests ih =>
      have hserved := effect_serve s store t request w
      have hbehind := effects_run s store requests
        ((t.serve s.recorded store.recorded request).run w).1.2
        ((t.serve s.recorded store.recorded request).run w).2
      obtain h | h := List.mem_cons.mp h
      · obtain ⟨rfl, hanswer⟩ := Prod.mk.inj h
        obtain ⟨t', w', hissue⟩ : ∃ t' w',
            (t.issue s.recorded store.recorded principal).run w = ((.ok token, t'), w') :=
          ⟨_, _, Prod.ext (Prod.ext (Response.issued.inj hanswer).symm rfl) rfl⟩
        obtain ⟨k, older, now, hkeys, htoken⟩ := key_of_issue hissue
        have hserve : (t.serve s.recorded store.recorded (.issue principal)).run w =
            ((.issued (.ok token), t'), w') := by
          change (t.issue s.recorded store.recorded principal >>= _).run w = _
          rw [run_bind_of_run_eq hissue]
          rfl
        rw [hserve] at hserved hbehind
        obtain ⟨hmem, hid⟩ := hserved.stocked hr k (by rw [hkeys]; exact List.mem_cons_self)
        refine ⟨k, ?_, hid, now, t.lifetime, htoken⟩
        change k ∈
          ((t.serve s.recorded store.recorded (.issue principal) >>= _).run w).2.ledger.activated
        rw [run_bind_of_run_eq hserve]
        exact hbehind.activated_suffix.mem hmem
      · exact ih (hserved.stocked hr) h

/-- Every key at the end of a session was activated in it, and every token was issued with such
a key. -/
theorem keys_of_session {c : CheckedSettings} {requests : List Request} {w w' : σ}
    {answers : List Response} {t : TokenAuthenticator}
    (hload : ((store.load c.algorithm).run w).1 = .ok none)
    (h : (session s store c requests).run w = (.ok (answers, t), w')) :
    (∀ k ∈ t.ring.keys, k ∈ sessionKeys s store c requests w) ∧
      ∀ principal token, (Request.issue principal, Response.issued (.ok token)) ∈
          requests.zip answers →
        ∃ k ∈ sessionKeys s store c requests w, k.id ≠ "" ∧
          ∃ now lifetime, IssuedToken.issue k principal now lifetime = .ok token := by
  have hwatched := erases_session s store c requests ⟨w, []⟩
  rw [h] at hwatched
  rw [sessionKeys]
  generalize hrecorded : (session s.recorded store.recorded c requests).run ⟨w, []⟩ = recorded
    at hwatched
  obtain ⟨result, w₁⟩ := recorded
  obtain rfl : result = .ok (answers, t) := (Prod.mk.inj hwatched).1
  obtain ⟨t₀, w₀, hstart, hrun⟩ := session_eq_ok_iff.mp hrecorded
  have hstocked := (stocked_of_start hload hstart).2
  have heffects := effects_run s store requests t₀ w₀
  have htokens := exists_issue_of_mem s store requests hstocked
  rw [hrun] at heffects htokens
  exact ⟨fun k hk => (heffects.stocked hstocked k hk).1, htokens⟩

end

/-! ### Two sessions with one key file -/

section

variable {s : Surroundings Machine.Act} {f : KeyFile} {c d : CheckedSettings}
  {requests : List Request} {m₀ m₁ m₂ : Machine} {answers : List Response} {t : TokenAuthenticator}

/-- At the end of a session the key file holds the newest key of the ring. -/
theorem exists_filed_of_session (hs : s.LeavesFiles) (hsound : m₀.files.Sound)
    (hhere : m₀.files.HasFolder m₀.here)
    (hlink : ∀ path ∈ [f.path, f.draftPath], m₀.files.Unlinked m₀.here path)
    (habsent : m₀.files.isPresent m₀.here f.path = false)
    (h : (session s (f.store s Machine.fileSystem) c requests).run m₀ = (.ok (answers, t), m₁)) :
    ∃ dir, KeyFile.Filed f dir c.algorithm t.ring m₁ := by
  obtain ⟨t₀, w₀, hstart, hrun⟩ := session_eq_ok_iff.mp h
  obtain ⟨dir, hfiled⟩ := KeyFile.exists_filed_of_seeding hs hsound hhere hlink habsent
    (seeding_of_start hstart)
  have hkept := run_induction s (f.store s Machine.fileSystem)
    (P := KeyFile.Filed f dir c.algorithm) (fun _ _ _ _ _ _ _ h step => h.step hs step)
    (fun _ m h => h.of_files_eq (hs.1 m).1 (hs.1 m).2) requests hfiled
  rw [hrun] at hkept
  exact ⟨dir, hkept⟩

/-- An authenticator can always be made where a key file has its home. Its key is the one of
the file if that is one for the algorithm, and else a fresh one. -/
theorem exists_start_of_holds (hs : s.LeavesFiles) {m : Machine} {dir : Place}
    {k? : Option SigningKey} (h : KeyFile.Holds f m.files m.here dir k?)
    (hreads : ∀ k ∈ k?, k.material.ReadsBack ∧ k.created.OnClock) (hcapacity : 0 < c.capacity) :
    ∃ t k m', (start s (f.store s Machine.fileSystem) c).run m = (.ok t, m') ∧
      t.ring.keys = [k] ∧ k.algorithm = c.algorithm ∧
      KeyFile.Holds f m'.files m'.here dir (some k) ∧
      (∀ k' ∈ k?, k'.algorithm = c.algorithm → k = k') ∧
      ((∀ k' ∈ k?, k'.algorithm ≠ c.algorithm) →
        (∃ m m', (KeyRing.freshKey s c.algorithm).run m = (.ok k, m')) ∧
          k ∈ sessionKeys s (f.store s Machine.fileSystem) c [] m) := by
  obtain ⟨r, k, m', hseeded, hkeys, halgorithm, hheld, hwhich⟩ :=
    h.exists_seeded hs hreads c.algorithm hcapacity
  have hstart := start_of_seeded hseeded
  refine ⟨_, k, m', hstart, hkeys, halgorithm, hheld, ?_, ?_⟩
  · rintro k' ⟨⟩ hown
    rw [Option.filter_some, if_pos (decide_eq_true hown)] at hwhich
    exact hwhich.1
  · intro hother
    have hnone : (k?.filter fun k => k.algorithm = c.algorithm) = none := by
      rw [Option.filter_eq_none_iff]
      intro k' hk'
      rw [decide_eq_true_eq]
      exact hother k' hk'
    rw [hnone] at hwhich
    obtain ⟨m₁, hload, -⟩ := h.run_load hs hreads c.algorithm
    rw [hnone] at hload
    refine ⟨hwhich, (keys_of_session (congrArg Prod.fst hload) (session_nil hstart)).1 k ?_⟩
    rw [hkeys]
    exact List.mem_singleton_self k

/-- An authenticator is made where there is no key file, and serves any requests. Another one,
for any algorithm, can then be made with the same key file, and has a single key, which the
file holds. If both are for one algorithm, it is the newest key of the first, if that has one;
else it is a fresh key. A token of the first tells the second its principal, until it expires,
if it was issued with that key, and is unknown if it was issued with any other. The keys that
are made have distinct identifiers, and those of the first are read back and make good
signatures. -/
theorem verify_of_restart (hs : s.LeavesFiles) (hsound : m₀.files.Sound)
    (hhere : m₀.files.HasFolder m₀.here)
    (hlink : ∀ path ∈ [f.path, f.draftPath], m₀.files.Unlinked m₀.here path)
    (habsent : m₀.files.isPresent m₀.here f.path = false)
    (hfirst : (session s (f.store s Machine.fileSystem) c requests).run m₀ =
      (.ok (answers, t), m₁))
    (hfiles : m₂.files = m₁.files) (hhere' : m₂.here = m₁.here) (hcapacity : 0 < d.capacity)
    (hdistinct : ((sessionKeys s (f.store s Machine.fileSystem) d [] m₂ ++
      sessionKeys s (f.store s Machine.fileSystem) c requests m₀).map SigningKey.id).Nodup)
    (hkeys : ∀ k ∈ sessionKeys s (f.store s Machine.fileSystem) c requests m₀, k.Faithful) :
    ∃ t' k' m₃, (start s (f.store s Machine.fileSystem) d).run m₂ = (.ok t', m₃) ∧
      t'.ring.keys = [k'] ∧ k'.algorithm = d.algorithm ∧
      m₃.files.read m₃.here f.path = .ok (KeyFile.document k') ∧
      (∀ k, t.ring.keys.head? = some k → d.algorithm = c.algorithm → k' = k) ∧
      (t.ring.keys = [] ∨ d.algorithm ≠ c.algorithm →
        (∃ m m', (KeyRing.freshKey s d.algorithm).run m = (.ok k', m')) ∧
          k' ∉ sessionKeys s (f.store s Machine.fileSystem) c requests m₀) ∧
      ∀ principal token, (Request.issue principal, Response.issued (.ok token)) ∈
          requests.zip answers →
        ∃ k ∈ sessionKeys s (f.store s Machine.fileSystem) c requests m₀, ∃ T,
          Token.parse token.data = .ok T ∧ T.header.keyId = k.id ∧ T.SignedBy k ∧
          ∀ now,
            (k = k' → t'.verify token.data now =
              if now.seconds < token.validBefore.seconds then .ok principal
              else .error .expired) ∧
            (k ≠ k' → t'.verify token.data now = .error (.unknownKey k.id)) := by
  obtain ⟨dir, hfiled⟩ := exists_filed_of_session hs hsound hhere hlink habsent hfirst
  have hholds := hfiled.holds
  rw [← hfiles, ← hhere'] at hholds
  have hload : (((f.store s Machine.fileSystem).load c.algorithm).run m₀).1 = .ok none :=
    congrArg Prod.fst (KeyFile.run_load_of_absent s habsent c.algorithm)
  obtain ⟨hring, htokens⟩ := keys_of_session hload hfirst
  generalize hfirstKeys : sessionKeys s (f.store s Machine.fileSystem) c requests m₀ =
    firstKeys at *
  have hnewest : ∀ k ∈ t.ring.keys.head?, k ∈ firstKeys :=
    fun k hk => hring k (List.mem_of_mem_head? hk)
  have hreads : ∀ k ∈ t.ring.keys.head?, k.material.ReadsBack ∧ k.created.OnClock :=
    fun k hk => ⟨(hkeys k (hnewest k hk)).readsBack, (hkeys k (hnewest k hk)).onClock⟩
  obtain ⟨t', k', m₃, hstart, hkeys', halgorithm, hheld, hkept, hfresh⟩ :=
    exists_start_of_holds hs hholds hreads hcapacity
  have hown : ∀ k ∈ t.ring.keys.head?, k.algorithm = c.algorithm := by
    intro k hk
    rw [hfiled.homogeneous k (List.mem_of_mem_head? hk), hfiled.algorithm_eq]
  -- The key is the newest of the first ring, or it is activated in the second session.
  have hmem : k' ∈ sessionKeys s (f.store s Machine.fileSystem) d [] m₂ ++ firstKeys := by
    rw [List.mem_append]
    by_cases hsame : ∃ k ∈ t.ring.keys.head?, k.algorithm = d.algorithm
    · obtain ⟨k, hk, ha⟩ := hsame
      rw [hkept k hk ha]
      exact Or.inr (hnewest k hk)
    · exact Or.inl (hfresh fun k hk ha => hsame ⟨k, hk, ha⟩).2
  refine ⟨t', k', m₃, hstart, hkeys', halgorithm, hheld.home.file.read_of_file hheld.content,
    ?_, ?_, ?_⟩
  · intro k hk hsame
    exact hkept k hk ((hown k hk).trans hsame.symm)
  · intro hgone
    obtain ⟨hmade, hsecond⟩ := hfresh fun k hk ha => by
      obtain hempty | hother := hgone
      · rw [hempty] at hk
        cases hk
      · exact hother (ha.symm.trans (hown k hk))
    refine ⟨hmade, fun hearlier => ?_⟩
    rw [List.map_append, List.nodup_append] at hdistinct
    exact hdistinct.2.2 _ (List.mem_map_of_mem hsecond) _ (List.mem_map_of_mem hearlier) rfl
  · intro principal token htoken
    obtain ⟨k, hk, hid, now, lifetime, hissue⟩ := htokens principal token htoken
    obtain ⟨T, hparse, hkeyId, hsubject, hexpiry, hsigned⟩ :=
      exists_signedBy_of_issue hid hissue (hkeys k hk).signs
    refine ⟨k, hk, T, hparse, hkeyId, hsigned, fun now => ?_⟩
    obtain ⟨hsame, hother⟩ := verify_of_keys_eq hkeys' hparse hkeyId hsigned now
    rw [hsubject, ← Instant.seconds_of_ofSeconds? hexpiry] at hsame
    refine ⟨hsame, fun hne => hother fun heq => hne ?_⟩
    exact List.inj_on_of_nodup_map hdistinct (List.mem_append_right _ hk) hmem heq.symm

end

/-! ### A session with one token -/

section

variable {σ : Type} {s : Surroundings (StateM σ)} {store : KeyStore (StateM σ)}
  {c : CheckedSettings} {k : SigningKey} {w w₁ w₂ : σ}

theorem run_recorded_load {a : Algorithm} {answer : Except AuthError (Option SigningKey)}
    (h : (store.load a).run w = (answer, w₁)) (l : Ledger) :
    (store.recorded.load a).run ⟨w, l⟩ = (answer, ⟨w₁, Ledger.entries .loaded answer ++ l⟩) := by
  change (Recorded.act _ _).run _ = _
  rw [Recorded.run_act, h]

theorem run_recorded_activate (h : (store.activate k).run w = (.ok (), w₁)) (l : Ledger) :
    (store.recorded.activate k).run ⟨w, l⟩ = (.ok (), ⟨w₁, .activated k :: l⟩) := by
  change (Recorded.act _ _).run _ = _
  rw [Recorded.run_act, h]
  rfl

/-- Where the store has no key, the key of a token is the one that is made for it. -/
theorem exists_session_of_issue (hcapacity : 0 < c.capacity)
    (hload : (store.load c.algorithm).run w = (.ok none, w))
    (hfresh : ∀ l, (KeyRing.freshKey s.recorded c.algorithm).run ⟨w, l⟩ = (.ok k, ⟨w₁, l⟩))
    (hactivate : (store.activate k).run w₁ = (.ok (), w₂)) (hnow : (s.now.run w₂).2 = w₂)
    {principal : String} {token : IssuedToken}
    (htoken : IssuedToken.issue k principal (s.now.run w₂).1 c.lifetime.cut = .ok token) :
    ∃ t, (session s store c [.issue principal]).run w = (.ok ([.issued (.ok token)], t), w₂) ∧
      t.ring.keys = [k] ∧ sessionKeys s store c [.issue principal] w = [k] := by
  have hblank := KeyRing.empty_of_pos c.algorithm hcapacity
  obtain ⟨t, hkeys, hlifetime, hstart⟩ : ∃ t : TokenAuthenticator, t.ring.keys = [k] ∧
      t.lifetime = c.lifetime.cut ∧ (start s.recorded store.recorded c).run ⟨w, []⟩ =
        (.ok t, ⟨w₂, [.activated k, .loaded none]⟩) :=
    ⟨_, KeyRing.keys_install_of_nil rfl k, rfl, start_of_seeded (KeyRing.run_seeded_eq_ok hblank
      (run_recorded_load hload []) (hfresh _) (run_recorded_activate hactivate _))⟩
  rw [← hlifetime] at htoken
  have hissue : (t.issue s.recorded store.recorded principal).run
      ⟨w₂, [.activated k, .loaded none]⟩ =
        ((.ok token, t), ⟨(s.now.run w₂).2, [.activated k, .loaded none]⟩) :=
    issue_of_newest hkeys htoken
  rw [hnow] at hissue
  have hserve : (t.serve s.recorded store.recorded (.issue principal)).run
      ⟨w₂, [.activated k, .loaded none]⟩ =
        ((.issued (.ok token), t), ⟨w₂, [.activated k, .loaded none]⟩) := by
    rw [serve, run_bind_of_run_eq hissue]
    rfl
  have hrun : (t.run s.recorded store.recorded [.issue principal]).run
      ⟨w₂, [.activated k, .loaded none]⟩ =
        (([.issued (.ok token)], t), ⟨w₂, [.activated k, .loaded none]⟩) := by
    rw [run, run_bind_of_run_eq hserve]
    rfl
  have hsession := session_eq_ok_iff.mpr ⟨t, _, hstart, hrun⟩
  have hwatched := erases_session s store c [.issue principal] ⟨w, []⟩
  rw [hsession] at hwatched
  refine ⟨t, hwatched.symm, hkeys, ?_⟩
  rw [sessionKeys, hsession]
  rfl

/-- Where the store has a key for the algorithm, no other is made. -/
theorem sessionKeys_of_load (hcapacity : 0 < c.capacity)
    (hload : (store.load c.algorithm).run w = (.ok (some k), w₁)) :
    sessionKeys s store c [] w = [] := by
  have hstart := start_of_seeded (c := c) (KeyRing.run_seeded_of_load (s := s.recorded)
    (KeyRing.empty_of_pos c.algorithm hcapacity) (run_recorded_load hload []))
  rw [sessionKeys, session_nil hstart]
  rfl

end

/-- The first key on the machine with one folder. -/
theorem exists_fresh_withFolder :
    ∃ k : SigningKey, k.Faithful ∧ (∃ octets, k.material = .secret octets) ∧
      k.algorithm = singleKey.algorithm ∧
      ∀ l, (KeyRing.freshKey Machine.surroundings.recorded singleKey.algorithm).run
        ⟨.withFolder, l⟩ = (.ok k, ⟨{ Machine.withFolder with drawn := 1 }, l⟩) := by
  obtain ⟨k, hk⟩ := SigningKey.exists_generate singleKey.algorithm .epoch
    (List.replicate SigningKey.randomSize 0)
  obtain ⟨-, halgorithm, hcreated, hmaterial⟩ := SigningKey.parts_of_ofParts hk
  have hsecret : ∃ octets, k.material = .secret octets := ⟨_, hmaterial⟩
  refine ⟨k, ⟨?_, ?_, ?_⟩, hsecret, halgorithm, ?_⟩
  · rw [hmaterial]
    exact True.intro
  · rw [hcreated]
    exact Or.inl (by decide)
  · intro message signature
    rw [hmaterial]
    exact KeyMaterial.verify_of_sign_secret
  · intro l
    have hrun : (KeyRing.freshKey Machine.surroundings.recorded singleKey.algorithm).run
        ⟨.withFolder, l⟩ = ((SigningKey.generate singleKey.algorithm .epoch
          (List.replicate SigningKey.randomSize 0)).mapError .cryptographic,
          ⟨{ Machine.withFolder with drawn := 1 }, l⟩) := rfl
    rw [hrun, hk]
    rfl

/-- The store on the machine with one folder. -/
def folderStore : KeyStore Machine.Act :=
  Machine.keyFile.store Machine.surroundings Machine.fileSystem

/-- A token that is good after a restart. -/
theorem verify_of_restart_kept :
    ∃ (token : IssuedToken) (t t' : TokenAuthenticator) (m₁ m₂ : Machine),
      (session Machine.surroundings folderStore singleKey [.issue "a"]).run .withFolder =
        (.ok ([.issued (.ok token)], t), m₁) ∧
      (start Machine.surroundings folderStore singleKey).run m₁ = (.ok t', m₂) ∧
      t'.verify token.data .epoch = .ok "a" := by
  obtain ⟨k, hfaithful, ⟨octets, hmaterial⟩, halgorithm, hfresh⟩ := exists_fresh_withFolder
  have hhome := Machine.home_withFolder
  have habsent : Machine.withFolder.files.isPresent Machine.withFolder.here
      Machine.keyFile.path = false := hhome.file.isPresent_of_none rfl
  have hload : (folderStore.load singleKey.algorithm).run .withFolder = (.ok none, .withFolder) :=
    KeyFile.run_load_of_absent Machine.surroundings habsent singleKey.algorithm
  obtain ⟨m₁, hactivate, hheld, hclock⟩ : ∃ m₁ : Machine,
      (folderStore.activate k).run { Machine.withFolder with drawn := 1 } = (.ok (), m₁) ∧
      Machine.keyFile.Holds m₁.files m₁.here ["keys"] (some k) ∧ m₁.clock = .epoch :=
    ⟨_, hhome.run_activate (m := { Machine.withFolder with drawn := 1 }) k, hhome.holds_filed k,
      rfl⟩
  have hnow : ((Machine.surroundings.now.run m₁).1 : Instant) = .epoch :=
    congrArg Moment.toInstant hclock
  have hbefore : IssuedToken.instant (Instant.epoch.seconds + singleKey.lifetime.cut.secondsUp) =
      .ok ⟨60, 0, by decide, by decide, by decide⟩ := rfl
  obtain ⟨token, htoken⟩ := exists_issue_of_secret hmaterial (by decide : "a" ≠ "") rfl hbefore
  obtain ⟨-, -, -, -, hexpiry, -⟩ := IssuedToken.issue_eq_ok_iff.mp htoken
  have hvalid : token.validBefore.seconds = 60 :=
    congrArg Instant.seconds (Except.ok.inj (hexpiry.symm.trans hbefore))
  rw [← hnow] at htoken
  obtain ⟨t, hfirst, hring, hkeys⟩ :=
    exists_session_of_issue (c := singleKey) Nat.one_pos hload hfresh hactivate rfl htoken
  have hreads : ∀ k' ∈ some k, k'.material.ReadsBack ∧ k'.created.OnClock := by
    rintro k' ⟨⟩
    exact ⟨hfaithful.readsBack, hfaithful.onClock⟩
  obtain ⟨m₂, hload₂, -⟩ := hheld.run_load Machine.leavesFiles_surroundings hreads
    singleKey.algorithm
  rw [Option.filter_some, if_pos (decide_eq_true halgorithm)] at hload₂
  have hkeys₂ : sessionKeys Machine.surroundings folderStore singleKey [] m₁ = [] :=
    sessionKeys_of_load Nat.one_pos hload₂
  have hdistinct : ((sessionKeys Machine.surroundings folderStore singleKey [] m₁ ++
      sessionKeys Machine.surroundings folderStore singleKey [.issue "a"] .withFolder).map
        SigningKey.id).Nodup := by
    rw [hkeys, hkeys₂]
    exact List.nodup_singleton _
  have hall : ∀ k' ∈ sessionKeys Machine.surroundings folderStore singleKey [.issue "a"]
      .withFolder, k'.Faithful := by
    rw [hkeys]
    simpa using hfaithful
  obtain ⟨t', k', m₃, hstart, -, -, -, hsame, -, htokens⟩ := verify_of_restart
    Machine.leavesFiles_surroundings hhome.sound (FileTree.hasFolder_root _) hhome.unlinked habsent
    hfirst rfl rfl Nat.one_pos hdistinct hall
  have hkept : k' = k := hsame k (by rw [hring]; rfl) rfl
  obtain ⟨k'', hmem, T, -, -, -, hverify⟩ := htokens "a" token (by simp)
  have hsigner : k'' = k := by
    change k'' ∈
      sessionKeys Machine.surroundings folderStore singleKey [.issue "a"] .withFolder at hmem
    rw [hkeys] at hmem
    exact List.mem_singleton.mp hmem
  refine ⟨token, t, t', m₁, m₃, hfirst, hstart, ?_⟩
  rw [(hverify .epoch).1 (hsigner.trans hkept.symm), hvalid]
  rfl

end TokenAuthenticator

end TokenAuthority
