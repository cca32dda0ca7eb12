import TokenAuthority.Proofs.CommandLine.Invocation

/-!
# Invocations that took place

An event is an invocation with the machine before and after it. All that an event does follows
from the authenticator that it begins with: with a single key, a command that drops no key only
makes use of it, and what it reports depends on this key alone.
-/

namespace TokenAuthority

open CheckedSettings (Values)

/-! ### Making an authenticator, watched -/

namespace TokenAuthenticator

variable {σ : Type} {s : Surroundings (StateM σ)} {store : KeyStore (StateM σ)}
  {c : CheckedSettings} {k : SigningKey} {w w₁ w₂ w₃ : σ}

theorem run_recorded_freshKey {a : Algorithm} {answer : Except AuthError SigningKey}
    (h : (KeyRing.freshKey s a).run w = (answer, w₁)) (l : Ledger) :
    (KeyRing.freshKey s.recorded a).run ⟨w, l⟩ = (answer, ⟨w₁, l⟩) := by
  rw [KeyRing.run_freshKey] at h ⊢
  cases h
  rfl

/-- The key of the store is the only one of the ring. -/
theorem exists_start_of_loaded (hcapacity : 0 < c.capacity)
    (hload : (store.load c.algorithm).run w = (.ok (some k), w₁)) :
    ∃ r : KeyRing, r.keys = [k] ∧ r.algorithm = c.algorithm ∧
      (start s.recorded store.recorded c).run ⟨w, []⟩ =
        (.ok ⟨r, c.lifetime.cut⟩, ⟨w₁, [.loaded (some k)]⟩) := by
  have hblank := KeyRing.empty_of_pos c.algorithm hcapacity
  have hseeded := KeyRing.run_seeded_of_load (s := s.recorded) hblank (run_recorded_load hload [])
  exact ⟨_, KeyRing.keys_install_of_nil rfl k, rfl, start_of_seeded hseeded⟩

/-- Where the store has no key, the ring begins with a fresh one. -/
theorem exists_start_of_fresh (hcapacity : 0 < c.capacity)
    (hload : (store.load c.algorithm).run w = (.ok none, w₁))
    (hfresh : (KeyRing.freshKey s c.algorithm).run w₁ = (.ok k, w₂))
    (hactivate : (store.activate k).run w₂ = (.ok (), w₃)) :
    ∃ r : KeyRing, r.keys = [k] ∧ r.algorithm = c.algorithm ∧
      (start s.recorded store.recorded c).run ⟨w, []⟩ =
        (.ok ⟨r, c.lifetime.cut⟩, ⟨w₃, [.activated k, .loaded none]⟩) := by
  have hblank := KeyRing.empty_of_pos c.algorithm hcapacity
  have hseeded := KeyRing.run_seeded_eq_ok hblank (run_recorded_load hload [])
    (run_recorded_freshKey hfresh _) (run_recorded_activate hactivate _)
  exact ⟨_, KeyRing.keys_install_of_nil rfl k, rfl, start_of_seeded hseeded⟩

/-- An authenticator has as many places for keys as its settings say. -/
theorem capacity_of_start {t : TokenAuthenticator}
    (h : (start s store c).run w = (.ok t, w₁)) : t.ring.capacity = c.capacity := by
  have hseeding := seeding_of_start h
  generalize t.ring = r at hseeding ⊢
  cases hseeding with
  | loaded blank _ => exact (KeyRing.of_empty_eq_ok blank).2.1
  | rotated blank _ step => exact step.capacity_eq.trans (KeyRing.of_empty_eq_ok blank).2.1

end TokenAuthenticator

/-! ### Events -/

/-- An invocation that took place: the machine before it, what it was asked for, what it
reported, and the machine after it. -/
structure Event where
  before : Machine
  invocation : Invocation
  settings : TokenSettings
  command : Command
  report : Report
  after : Machine

namespace Event

/-- An event with the key at a place that was there before. -/
structure Happened (s : Surroundings Machine.Act) (place : StorePlace) (e : Event) : Prop where
  asks : e.invocation.Asks e.before e.settings e.command
  settled : (CheckedSettings.storePlace Machine.fileSystem e.settings).run e.before =
    (.ok place, e.before)
  ran : (e.invocation.run s).run e.before = (e.report, e.after)

section

variable (s : Surroundings Machine.Act) (place : StorePlace)

/-- The store of an event. -/
def store : KeyStore Machine.Act := TokenAuthenticator.storeOf s Machine.fileSystem place

/-- The keys that are activated in an event. -/
def keys (e : Event) : List SigningKey :=
  match CheckedSettings.values e.settings with
  | .error _ => []
  | .ok v =>
    ((e.command.process s.recorded (store s place).recorded (v.at place)).run
      ⟨e.before, []⟩).2.ledger.activated

/-- What the clock shows once an authenticator is made. -/
def clock (v : Values) (e : Event) : Instant :=
  (s.now.run ((TokenAuthenticator.start s (store s place) (v.at place)).run e.before).2).1

/-- A key that is made in an event, for an algorithm. -/
structure Makes (a : Algorithm) (e : Event) (k : SigningKey) : Prop where
  mem : k ∈ e.keys s place
  named : k.id ≠ ""
  own : k.algorithm = a

/-- An authenticator is made in an event. The ledger tells what the store did for it. -/
structure Starts (e : Event) (v : Values) (t : TokenAuthenticator) (m : Machine) (l : Ledger) :
    Prop where
  checked : CheckedSettings.values e.settings = .ok v
  made : (TokenAuthenticator.start s.recorded (store s place).recorded (v.at place)).run
    ⟨e.before, []⟩ = (.ok t, ⟨m, l⟩)

/-- A command was run with a single key, and dropped none. -/
structure Serves (e : Event) (v : Values) (k : SigningKey) : Prop where
  checked : CheckedSettings.values e.settings = .ok v
  room : v.capacity ≤ KeyRing.mostPlaces
  keeps : e.command.drops = false
  ran : ∃ t m₁, (TokenAuthenticator.start s (store s place) (v.at place)).run e.before =
      (.ok t, m₁) ∧
    t.ring.keys = [k] ∧ e.report = ((e.command.run s (store s place) t).run m₁).1

end

/-- Whether the current key was dropped. -/
def drops (e : Event) : Bool :=
  e.command.drops && e.report.ending = .done

variable {s : Surroundings Machine.Act} {place : StorePlace} {e : Event} {v : Values}
  {k : SigningKey} {a : Algorithm}

theorem Happened.run_of_error (h : e.Happened s place) {why : Misconfiguration}
    (hwrong : CheckedSettings.values e.settings = .error why) :
    e.report = ⟨[], .failed (.configuration why)⟩ ∧ e.after = e.before := by
  have hrun := h.asks.run_eq.symm.trans h.ran
  rw [Command.run_runWith h.settled, hwrong] at hrun
  exact ⟨(Prod.mk.inj hrun).1.symm, (Prod.mk.inj hrun).2.symm⟩

theorem Happened.run_of_values (h : e.Happened s place)
    (hchecked : CheckedSettings.values e.settings = .ok v) :
    (e.command.process s (store s place) (v.at place)).run e.before = (e.report, e.after) := by
  have hrun := h.asks.run_eq.symm.trans h.ran
  rw [Command.run_runWith h.settled, hchecked] at hrun
  exact hrun

section

variable {t : TokenAuthenticator} {m m' m₁ : Machine} {l : Ledger}

/-- The command of an event is run with the authenticator that is made. -/
theorem Happened.run_of_starts (h : e.Happened s place) (hstarts : e.Starts s place v t m l)
    (hroom : t.ring.isAllocated) :
    (TokenAuthenticator.start s (store s place) (v.at place)).run e.before = (.ok t, m) ∧
      (e.command.run s (store s place) t).run m = (e.report, e.after) ∧
      e.keys s place = ((e.command.run s.recorded (store s place).recorded t).run
        ⟨m, l⟩).2.ledger.activated := by
  have herased := TokenAuthenticator.erases_start s (store s place) (v.at place) ⟨e.before, []⟩
  rw [hstarts.made] at herased
  have hrun := h.run_of_values hstarts.checked
  rw [Command.run_process, ← herased] at hrun
  dsimp only at hrun
  rw [if_pos hroom] at hrun
  refine ⟨herased.symm, hrun, ?_⟩
  rw [keys, hstarts.checked]
  dsimp only
  rw [Command.run_process, hstarts.made]
  dsimp only
  rw [if_pos hroom]

/-- Nothing is run where memory cannot have the places of the ring, though a key may have been
made. -/
theorem Happened.overflows (h : e.Happened s place) (hstarts : e.Starts s place v t m l)
    (hroom : ¬t.ring.isAllocated) :
    e.report = ⟨[], .overflowed⟩ ∧ e.after = m ∧ e.keys s place = l.activated := by
  have herased := TokenAuthenticator.erases_start s (store s place) (v.at place) ⟨e.before, []⟩
  rw [hstarts.made] at herased
  have hrun := h.run_of_values hstarts.checked
  rw [Command.run_process, ← herased] at hrun
  dsimp only at hrun
  rw [if_neg hroom] at hrun
  obtain ⟨hreport, hafter⟩ := Prod.mk.inj hrun
  refine ⟨hreport.symm, hafter.symm, ?_⟩
  rw [keys, hstarts.checked]
  dsimp only
  rw [Command.run_process, hstarts.made]
  dsimp only
  rw [if_neg hroom]

theorem Starts.isAllocated_iff (h : e.Starts s place v t m l) (hkeys : t.ring.keys = [k]) :
    t.ring.isAllocated ↔ v.capacity ≤ KeyRing.mostPlaces := by
  rw [KeyRing.isAllocated_iff_of_keys hkeys, TokenAuthenticator.capacity_of_start h.made]
  rfl

theorem Happened.serves (hs : s.LeavesFiles) (h : e.Happened s place)
    (hstarts : e.Starts s place v t m l) (hkeys : t.ring.keys = [k])
    (hroom : v.capacity ≤ KeyRing.mostPlaces) (hkeeps : e.command.drops = false) :
    e.Serves s place v k ∧ e.keys s place = l.activated ∧ e.after.files = m.files := by
  obtain ⟨hmade, hrun, hactivated⟩ :=
    h.run_of_starts hstarts ((hstarts.isAllocated_iff hkeys).mpr hroom)
  -- The command is run twice, on the machine and on the one that is watched, for the ledger.
  obtain ⟨report, w, hrun', hw⟩ :=
    Command.exists_run_of_not_drops s (store s place) hkeys hkeeps m
  obtain ⟨_, w', hwatched, hw'⟩ :=
    Command.exists_run_of_not_drops s.recorded (store s place).recorded hkeys hkeeps ⟨m, l⟩
  refine ⟨⟨hstarts.checked, hroom, hkeeps, t, m, hmade, hkeys, congrArg Prod.fst hrun.symm⟩,
    ?_, ?_⟩
  · rw [hactivated, hwatched]
    obtain rfl | rfl := hw'
    · rfl
    · rfl
  · rw [hrun] at hrun'
    rw [(Prod.mk.inj hrun').2]
    obtain rfl | rfl := hw
    · rfl
    · exact (hs.1 m).1

theorem Happened.renews (h : e.Happened s place) (hstarts : e.Starts s place v t m l)
    (hroom : t.ring.isAllocated) (hcommand : e.command = .renew)
    (hfresh : (KeyRing.freshKey s t.ring.algorithm).run m = (.ok k, m₁))
    (hactivate : ((store s place).activate k).run m₁ = (.ok (), m')) :
    e.drops = true ∧ k ∈ e.keys s place ∧ e.after = m' := by
  obtain ⟨-, hrun, hactivated⟩ := h.run_of_starts hstarts hroom
  have hwatched := Command.run_renew (TokenAuthenticator.run_recorded_freshKey hfresh l)
    (TokenAuthenticator.run_recorded_activate hactivate l)
  rw [hcommand] at hrun hactivated
  rw [Command.run_renew hfresh hactivate] at hrun
  obtain ⟨hreport, hafter⟩ := Prod.mk.inj hrun
  refine ⟨?_, ?_, hafter.symm⟩
  · rw [drops, hcommand, ← hreport]
    rfl
  · rw [hactivated, hwatched]
    exact List.mem_cons_self

theorem Happened.revokes (h : e.Happened s place) (hstarts : e.Starts s place v t m l)
    (hroom : t.ring.isAllocated) (hcommand : e.command = .revoke)
    (hdiscard : (store s place).discard.run m = (.ok (), m')) :
    e.drops = true ∧ e.after = m' := by
  obtain ⟨-, hrun, -⟩ := h.run_of_starts hstarts hroom
  rw [hcommand, Command.run_revoke hdiscard] at hrun
  obtain ⟨hreport, hafter⟩ := Prod.mk.inj hrun
  refine ⟨?_, hafter.symm⟩
  rw [drops, hcommand, ← hreport]
  rfl

end

/-! ### What an event with one key says -/

theorem Serves.exists_issue (h : e.Serves s place v k) {principal : String}
    {lifetime : Option Int} {data : String} {lines : List String}
    (hcommand : e.command = .issue principal lifetime)
    (hreport : e.report = ⟨data :: lines, .done⟩) :
    ∃ now duration token, IssuedToken.issue k principal now duration = .ok token ∧
      data = token.data ∧ lines = ["valid before: " ++ Rfc3339.write token.validBefore] := by
  obtain ⟨t, m₁, -, hkeys, hran⟩ := h.ran
  rw [hcommand, hreport] at hran
  exact Command.exists_issue_of_report hkeys hran.symm

theorem Serves.exists_verify (h : e.Serves s place v k) {data : String}
    (hcommand : e.command = .verify data) :
    ∃ t : TokenAuthenticator, t.ring.keys = [k] ∧
      e.report = .of ((t.verify data (e.clock s place v)).mapError .verification)
        fun subject => [subject] := by
  obtain ⟨t, m₁, hstart, hkeys, hran⟩ := h.ran
  refine ⟨t, hkeys, ?_⟩
  rw [hran, hcommand, clock, hstart]
  rfl

theorem Serves.report_of_own_key (h : e.Serves s place v k) {data : String}
    (hcommand : e.command = .verify data) {T : Token} (hparse : Token.parse data = .ok T)
    (hkeyId : T.header.keyId = k.id) (hsigned : T.SignedBy k) :
    e.report =
      if (e.clock s place v).seconds < T.claims.expiresAt then ⟨[T.claims.subject], .done⟩
      else ⟨[], .failed (.verification .expired)⟩ := by
  obtain ⟨t, hkeys, hreport⟩ := h.exists_verify hcommand
  rw [hreport, TokenAuthenticator.verify,
    (TokenAuthenticator.verify_of_keys_eq hkeys hparse hkeyId hsigned _).1 rfl]
  split_ifs
  · rfl
  · rfl

theorem Serves.report_of_other_key (h : e.Serves s place v k) {data : String}
    (hcommand : e.command = .verify data) {T : Token} (hparse : Token.parse data = .ok T)
    (hkeyId : k.id ≠ T.header.keyId) :
    e.report = ⟨[], .failed (.verification (.unknownKey T.header.keyId))⟩ := by
  obtain ⟨t, hkeys, hreport⟩ := h.exists_verify hcommand
  have hunknown : t.verify data (e.clock s place v) = .error (.unknownKey T.header.keyId) := by
    refine KeyRing.verify_eq_error_iff.mpr
      (Or.inr ⟨T, Token.parse_eq_ok_iff.mp hparse, Or.inl ⟨?_, rfl⟩⟩)
    rw [hkeys]
    exact List.forall_mem_singleton.mpr hkeyId
  rw [hreport, hunknown]
  rfl

end Event

/-! ### With a key file -/

namespace KeyFile

/-- An authenticator can be made where a key file has its home and holds no key for another
algorithm. -/
theorem Holds.exists_start {s : Surroundings Machine.Act} (hs : s.LeavesFiles) {f : KeyFile}
    {m : Machine} {dir : Place} {k? : Option SigningKey} (h : Holds f m.files m.here dir k?)
    {c : CheckedSettings} (hcapacity : 0 < c.capacity)
    (hk : ∀ k ∈ k?, k.Faithful ∧ k.algorithm = c.algorithm) :
    ∃ t k m₁ l, (TokenAuthenticator.start s.recorded (f.store s Machine.fileSystem).recorded c).run
        ⟨m, []⟩ = (.ok t, ⟨m₁, l⟩) ∧
      t.ring.keys = [k] ∧ t.ring.algorithm = c.algorithm ∧
      Holds f m₁.files m₁.here dir (some k) ∧
      (k? = some k ∧ m₁.files = m.files ∨
        k? = none ∧ k ∈ l.activated ∧ k.id ≠ "" ∧ k.algorithm = c.algorithm) := by
  have hreads : ∀ k ∈ k?, k.material.ReadsBack ∧ k.created.OnClock :=
    fun k hmem => ⟨(hk k hmem).1.readsBack, (hk k hmem).1.onClock⟩
  obtain ⟨m₁, hload, hfiles, hhere⟩ := h.run_load hs hreads c.algorithm
  change ((f.store s Machine.fileSystem).load c.algorithm).run m = _ at hload
  have h₁ := h
  rw [← hfiles, ← hhere] at h₁
  cases k? with
  | some k =>
      rw [Option.filter_some, if_pos (decide_eq_true (hk k rfl).2)] at hload
      obtain ⟨r, hkeys, halgorithm, hstart⟩ :=
        TokenAuthenticator.exists_start_of_loaded (s := s) hcapacity hload
      exact ⟨_, k, m₁, _, hstart, hkeys, halgorithm, h₁, Or.inl ⟨rfl, hfiles⟩⟩
  | none =>
      obtain ⟨k, m₂, hfresh, hfiles₂, hhere₂⟩ := exists_freshKey hs c.algorithm m₁
      have hhome := h₁.home
      rw [← hfiles₂, ← hhere₂] at hhome
      have hactivate : ((f.store s Machine.fileSystem).activate k).run m₂ = _ :=
        hhome.run_activate k
      obtain ⟨r, hkeys, halgorithm, hstart⟩ :=
        TokenAuthenticator.exists_start_of_fresh hcapacity hload hfresh hactivate
      obtain ⟨hown, hnamed⟩ := KeyRing.of_freshKey hfresh
      exact ⟨_, k, _, _, hstart, hkeys, halgorithm, hhome.holds_filed k,
        Or.inr ⟨rfl, List.mem_cons_self, hnamed, hown⟩⟩

end KeyFile

end TokenAuthority
