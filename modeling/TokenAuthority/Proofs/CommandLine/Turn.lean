import TokenAuthority.Proofs.CommandLine.Event
import TokenAuthority.Proofs.KeyFile.Vacant

/-!
# What invocations do to the key of the key file

A key file in its home always holds the key that the next invocation begins with: one that only
uses its key keeps it there, and only one that renews or revokes it puts another in its place,
or none.
-/

namespace TokenAuthority

open CheckedSettings (Values)

/-! ### Turns -/

/-- The store in a folder that is known by its true path. -/
abbrev StorePlace.ofPlace (dir : Place) : StorePlace := .folder (Path.ofNames dir)

/-- The key that an event begins with is in the key file after it: it was there before, and the
files stay as they are, or it is made where there was none. -/
def Event.Keeps (s : Surroundings Machine.Act) (dir : Place) (a : Algorithm)
    (k? : Option SigningKey) (e : Event) (k : SigningKey) : Prop :=
  k? = some k ∧ e.after.files = e.before.files ∨ k? = none ∧ e.Makes s (.ofPlace dir) a k

/-- What an event does to the key of the key file. -/
inductive Turn (s : Surroundings Machine.Act) (dir : Place) (a : Algorithm) :
    Option SigningKey → Event → Option SigningKey → Prop
  /-- The settings are refused. -/
  | refused {k? : Option SigningKey} {e : Event} {why : Misconfiguration}
      (wrong : CheckedSettings.values e.settings = .error why)
      (report : e.report = ⟨[], .failed (.configuration why)⟩)
      (files : e.after.files = e.before.files) : Turn s dir a k? e k?
  /-- The key is used, and made first if there is none. -/
  | served {k? : Option SigningKey} {e : Event} {v : Values} {k : SigningKey}
      (serves : e.Serves s (.ofPlace dir) v k) (held : e.Keeps s dir a k? k) :
      Turn s dir a k? e (some k)
  /-- Memory cannot have the places of the ring, and the program ends with the first key. -/
  | overflowed {k? : Option SigningKey} {e : Event} {v : Values} {k : SigningKey}
      (checked : CheckedSettings.values e.settings = .ok v)
      (crowded : KeyRing.mostPlaces < v.capacity) (report : e.report = ⟨[], .overflowed⟩)
      (held : e.Keeps s dir a k? k) : Turn s dir a k? e (some k)
  /-- The key is dropped. Another one may be in its place. -/
  | dropped {k? k?' : Option SigningKey} {e : Event} (ended : e.drops = true)
      (made : ∀ k ∈ k?', e.Makes s (.ofPlace dir) a k) : Turn s dir a k? e k?'

section

variable {s : Surroundings Machine.Act} {dir : Place} {a : Algorithm} {e : Event}
  {k? k?' : Option SigningKey}

section

variable {v : Values} {t : TokenAuthenticator} {k : SigningKey} {m : Machine} {l : Ledger}

theorem Event.keeps_of_starts (hmade : e.keys s (.ofPlace dir) = l.activated)
    (hfiles : e.after.files = m.files)
    (hwhich : k? = some k ∧ m.files = e.before.files ∨
      k? = none ∧ k ∈ l.activated ∧ k.id ≠ "" ∧ k.algorithm = a) :
    e.Keeps s dir a k? k := by
  obtain ⟨hkept, hsame⟩ | ⟨hnone, hmem, hnamed, hown⟩ := hwhich
  · exact Or.inl ⟨hkept, hfiles.trans hsame⟩
  · rw [← hmade] at hmem
    exact Or.inr ⟨hnone, hmem, hnamed, hown⟩

theorem Event.Happened.turn_of_keeps (hs : s.LeavesFiles)
    (hnames : ∀ name ∈ dir, Path.IsFileName name) (h : e.Happened s (.ofPlace dir))
    (hstarts : e.Starts s (.ofPlace dir) v t m l) (hkeys : t.ring.keys = [k])
    (hheld : KeyFile.Holds (.inFolder dir) m.files m.here dir (some k))
    (hwhich : k? = some k ∧ m.files = e.before.files ∨
      k? = none ∧ k ∈ l.activated ∧ k.id ≠ "" ∧ k.algorithm = a)
    (hroom : v.capacity ≤ KeyRing.mostPlaces) (hkeeps : e.command.drops = false) :
    Turn s dir a k? e (some k) ∧
      KeyFile.Holds (.inFolder dir) e.after.files [] dir (some k) := by
  obtain ⟨hserves, hmade, hfiles⟩ := h.serves hs hstarts hkeys hroom hkeeps
  refine ⟨.served hserves (e.keeps_of_starts hmade hfiles hwhich), ?_⟩
  rw [hfiles]
  exact hheld.fromAnywhere hnames []

theorem Event.Happened.turn_of_overflow (hnames : ∀ name ∈ dir, Path.IsFileName name)
    (h : e.Happened s (.ofPlace dir)) (hstarts : e.Starts s (.ofPlace dir) v t m l)
    (hkeys : t.ring.keys = [k])
    (hheld : KeyFile.Holds (.inFolder dir) m.files m.here dir (some k))
    (hwhich : k? = some k ∧ m.files = e.before.files ∨
      k? = none ∧ k ∈ l.activated ∧ k.id ≠ "" ∧ k.algorithm = a)
    (hcrowded : KeyRing.mostPlaces < v.capacity) :
    Turn s dir a k? e (some k) ∧
      KeyFile.Holds (.inFolder dir) e.after.files [] dir (some k) := by
  have hroom : ¬t.ring.isAllocated := by
    rw [hstarts.isAllocated_iff hkeys]
    exact Nat.not_le.mpr hcrowded
  obtain ⟨hreport, rfl, hmade⟩ := h.overflows hstarts hroom
  exact ⟨.overflowed hstarts.checked hcrowded hreport (e.keeps_of_starts hmade rfl hwhich),
    hheld.fromAnywhere hnames []⟩

theorem Event.Happened.exists_turn_of_renew (hs : s.LeavesFiles)
    (hnames : ∀ name ∈ dir, Path.IsFileName name) (h : e.Happened s (.ofPlace dir))
    (hstarts : e.Starts s (.ofPlace dir) v t m l) (hroom : t.ring.isAllocated)
    (halgorithm : t.ring.algorithm = a)
    (hheld : KeyFile.Holds (.inFolder dir) m.files m.here dir (some k))
    (hcommand : e.command = .renew) :
    ∃ k', Turn s dir a k? e (some k') ∧
      KeyFile.Holds (.inFolder dir) e.after.files [] dir (some k') := by
  obtain ⟨k', m₁, hfresh, hfiles, hhere⟩ := KeyFile.exists_freshKey hs t.ring.algorithm m
  have hhome := hheld.home
  rw [← hfiles, ← hhere] at hhome
  obtain ⟨hown, hnamed⟩ := KeyRing.of_freshKey hfresh
  obtain ⟨hended, hmem, hafter⟩ := h.renews hstarts hroom hcommand hfresh (hhome.run_activate k')
  refine ⟨k', .dropped hended ?_, ?_⟩
  · rintro _ ⟨⟩
    exact ⟨hmem, hnamed, hown.trans halgorithm⟩
  · rw [hafter]
    exact (hhome.holds_filed k').fromAnywhere hnames []

theorem Event.Happened.turn_of_revoke (hnames : ∀ name ∈ dir, Path.IsFileName name)
    (h : e.Happened s (.ofPlace dir)) (hstarts : e.Starts s (.ofPlace dir) v t m l)
    (hroom : t.ring.isAllocated)
    (hheld : KeyFile.Holds (.inFolder dir) m.files m.here dir (some k))
    (hcommand : e.command = .revoke) :
    Turn s dir a k? e none ∧ KeyFile.Holds (.inFolder dir) e.after.files [] dir none := by
  obtain ⟨files, hdiscard, hgone⟩ := hheld.run_discard
  obtain ⟨hended, hafter⟩ := h.revokes hstarts hroom hcommand hdiscard
  refine ⟨.dropped hended (by simp), ?_⟩
  rw [hafter]
  exact hgone.fromAnywhere hnames []

end

/-- Where the key file has its home every event is such a turn, and the home is there after it. -/
theorem Event.Happened.exists_turn (hs : s.LeavesFiles)
    (hnames : ∀ name ∈ dir, Path.IsFileName name) (h : e.Happened s (.ofPlace dir))
    (ha : Algorithm.ofName? e.settings.algorithm = some a)
    (hholds : KeyFile.Holds (.inFolder dir) e.before.files [] dir k?)
    (hk : ∀ k ∈ k?, k.Faithful ∧ k.algorithm = a) :
    ∃ k?', Turn s dir a k? e k?' ∧ KeyFile.Holds (.inFolder dir) e.after.files [] dir k?' := by
  cases hchecked : CheckedSettings.values e.settings with
  | error why =>
      obtain ⟨hreport, hafter⟩ := h.run_of_error hchecked
      rw [hafter]
      exact ⟨k?, .refused hchecked hreport (by rw [hafter]), hholds⟩
  | ok v =>
      obtain ⟨ha', -, hcapacity⟩ := CheckedSettings.of_values hchecked
      cases ha.symm.trans ha'
      obtain ⟨t, k, m, l, hmade, hkeys, halgorithm, hheld, hwhich⟩ :=
        (hholds.fromAnywhere hnames e.before.here).exists_start hs
          (c := v.at (.ofPlace dir)) hcapacity hk
      have hstarts : e.Starts s (.ofPlace dir) v t m l := ⟨hchecked, hmade⟩
      obtain hcrowded | hroom := Nat.lt_or_ge KeyRing.mostPlaces v.capacity
      · exact ⟨some k, h.turn_of_overflow hnames hstarts hkeys hheld hwhich hcrowded⟩
      have hallocated := (hstarts.isAllocated_iff hkeys).mpr hroom
      cases hcommand : e.command with
      | renew =>
          obtain ⟨k', hturn⟩ :=
            h.exists_turn_of_renew hs hnames hstarts hallocated halgorithm hheld hcommand
          exact ⟨some k', hturn⟩
      | revoke => exact ⟨none, h.turn_of_revoke hnames hstarts hallocated hheld hcommand⟩
      | issue _ _ | verify _ | inspect _ | info =>
          exact ⟨some k, h.turn_of_keeps hs hnames hstarts hkeys hheld hwhich hroom
            (by rw [hcommand]; rfl)⟩

theorem Event.Keeps.of_some {k k' : SigningKey} (h : e.Keeps s dir a (some k) k') : k' = k := by
  obtain ⟨hsame, -⟩ | ⟨hnone, -⟩ := h
  · exact (Option.some.inj hsame).symm
  · cases hnone

theorem Turn.exists_made (h : Turn s dir a k? e k?') :
    ∀ k ∈ k?', k ∈ k? ∨ e.Makes s (.ofPlace dir) a k := by
  intro k hk
  cases h with
  | refused _ _ _ => exact Or.inl hk
  | served _ held | overflowed _ _ _ held =>
      cases hk
      obtain ⟨rfl, -⟩ | ⟨-, made⟩ := held
      · exact Or.inl rfl
      · exact Or.inr made
  | dropped _ made => exact Or.inr (made k hk)

/-- A key stays the one of the key file unless it is dropped. -/
theorem Turn.of_some {k : SigningKey} (h : Turn s dir a (some k) e k?') :
    e.drops = false ∧ k?' = some k ∨
      e.drops = true ∧ ∀ k' ∈ k?', e.Makes s (.ofPlace dir) a k' := by
  cases h with
  | refused _ report _ =>
      refine Or.inl ⟨?_, rfl⟩
      rw [Event.drops, report]
      simp
  | served serves held =>
      refine Or.inl ⟨?_, congrArg some held.of_some⟩
      rw [Event.drops, serves.keeps]
      rfl
  | overflowed _ _ report held =>
      refine Or.inl ⟨?_, congrArg some held.of_some⟩
      rw [Event.drops, report]
      simp
  | dropped ended made => exact Or.inr ⟨ended, made⟩

end

/-! ### Histories -/

/-- One turn after another. -/
inductive Turns (s : Surroundings Machine.Act) (dir : Place) (a : Algorithm) :
    Option SigningKey → List Event → Option SigningKey → Prop
  | nil (k? : Option SigningKey) : Turns s dir a k? [] k?
  | cons {k? k₁? k₂? : Option SigningKey} {e : Event} {events : List Event}
      (holds : KeyFile.Holds (.inFolder dir) e.before.files [] dir k?)
      (turn : Turn s dir a k? e k₁?) (later : Turns s dir a k₁? events k₂?) :
      Turns s dir a k? (e :: events) k₂?

/-- One event after another, for one algorithm and with the key file in one folder. Each begins
with the files that the one before left, in a working folder that is there. -/
inductive History (s : Surroundings Machine.Act) (dir : Place) (a : Algorithm) :
    FileTree → List Event → FileTree → Prop
  | nil (t : FileTree) : History s dir a t [] t
  | cons {t : FileTree} {e : Event} {events : List Event}
      (happened : e.Happened s (.ofPlace dir))
      (algorithm : Algorithm.ofName? e.settings.algorithm = some a)
      (here : e.before.files.HasFolder e.before.here)
      (later : History s dir a e.after.files events t) :
      History s dir a e.before.files (e :: events) t

section

variable {s : Surroundings Machine.Act} {dir : Place} {a : Algorithm} {e : Event}
  {events earlier later : List Event} {t t' : FileTree} {k? k?' : Option SigningKey}

theorem History.happened (h : History s dir a t events t') :
    ∀ e ∈ events, e.Happened s (.ofPlace dir) := by
  induction h with
  | nil t => simp
  | cons happened _ _ _ ih => exact List.forall_mem_cons.mpr ⟨happened, ih⟩

theorem turns_of_history (hs : s.LeavesFiles) (hnames : ∀ name ∈ dir, Path.IsFileName name)
    (h : History s dir a t events t') :
    ∀ {k?}, KeyFile.Holds (.inFolder dir) t [] dir k? →
      (∀ k ∈ k?, k.Faithful ∧ k.algorithm = a) →
        (∀ k ∈ events.flatMap (Event.keys s (.ofPlace dir)), k.Faithful) →
          ∃ k?', Turns s dir a k? events k?' := by
  induction h with
  | nil t => exact fun _ _ _ => ⟨_, .nil _⟩
  | cons happened algorithm here later ih =>
      intro k? hholds hk hkeys
      -- The key of the file is good: it was there before, or it is one of those that are made.
      rw [List.flatMap_cons, List.forall_mem_append] at hkeys
      obtain ⟨k₁?, hturn, hholds₁⟩ := happened.exists_turn hs hnames algorithm hholds hk
      obtain ⟨k₂?, hturns⟩ := ih hholds₁ (fun k hmem => by
        obtain hbefore | hmade := hturn.exists_made k hmem
        · exact hk k hbefore
        · exact ⟨hkeys.1 k hmade.mem, hmade.own⟩) hkeys.2
      exact ⟨k₂?, .cons hholds hturn hturns⟩

theorem Turns.exists_of_append (h : Turns s dir a k? (earlier ++ later) k?') :
    ∃ k₁?, Turns s dir a k? earlier k₁? ∧ Turns s dir a k₁? later k?' := by
  induction earlier generalizing k? with
  | nil => exact ⟨k?, .nil k?, h⟩
  | cons e earlier ih =>
      cases h with
      | cons holds turn rest =>
          obtain ⟨k₁?, hearlier, hlater⟩ := ih rest
          exact ⟨k₁?, .cons holds turn hearlier, hlater⟩

/-- The key of the key file was there before, or was made meanwhile. -/
theorem Turns.exists_made (h : Turns s dir a k? events k?') :
    ∀ k ∈ k?', k ∈ k? ∨ ∃ e ∈ events, e.Makes s (.ofPlace dir) a k := by
  induction h with
  | nil k? => exact fun k hk => Or.inl hk
  | cons holds turn later ih =>
      intro k hk
      obtain hfirst | ⟨e, he, hmade⟩ := ih k hk
      · obtain hbefore | hmade := turn.exists_made k hfirst
        · exact Or.inl hbefore
        · exact Or.inr ⟨_, List.mem_cons_self, hmade⟩
      · exact Or.inr ⟨e, List.mem_cons_of_mem _ he, hmade⟩

/-- A key stays the one of the key file until it is dropped, and is not there again if it is not
made again. -/
theorem Turns.of_some {k : SigningKey} (h : Turns s dir a (some k) events k?') :
    events.any Event.drops = false ∧ k?' = some k ∨
      events.any Event.drops = true ∧
        ∀ k' ∈ k?', ∃ e ∈ events, e.Makes s (.ofPlace dir) a k' := by
  -- Until it is dropped the key is that of every turn; after that only what is made counts.
  generalize hk? : some k = k? at h
  induction h with
  | nil k? => exact Or.inl ⟨rfl, rfl⟩
  | @cons k? k₁? k₂? e events holds turn later ih =>
      cases hk?
      obtain ⟨hkept, rfl⟩ | ⟨hdropped, hmade⟩ := turn.of_some
      · rw [List.any_cons, hkept, Bool.false_or]
        obtain hsame | ⟨hended, hothers⟩ := ih rfl
        · exact Or.inl hsame
        · refine Or.inr ⟨hended, fun k' hk' => ?_⟩
          obtain ⟨e', he', hmade⟩ := hothers k' hk'
          exact ⟨e', List.mem_cons_of_mem _ he', hmade⟩
      · rw [List.any_cons, hdropped]
        refine Or.inr ⟨rfl, fun k' hk' => ?_⟩
        obtain hfirst | ⟨e', he', hmade'⟩ := later.exists_made k' hk'
        · exact ⟨e, List.mem_cons_self, hmade k' hfirst⟩
        · exact ⟨e', List.mem_cons_of_mem _ he', hmade'⟩

/-- An event that drops no key is refused, or asks for more places than memory can have, or
serves with the key that is the one of the key file after it. -/
theorem Turns.exists_serves (h : Turns s dir a k? (earlier ++ e :: later) k?')
    (hkeeps : e.command.drops = false) :
    (∃ why, CheckedSettings.values e.settings = .error why ∧
      e.report = ⟨[], .failed (.configuration why)⟩) ∨
    (∃ values, CheckedSettings.values e.settings = .ok values ∧
      KeyRing.mostPlaces < values.capacity ∧ e.report = ⟨[], .overflowed⟩) ∨
    ∃ values k, e.Serves s (.ofPlace dir) values k ∧
      Turns s dir a k? (earlier ++ [e]) (some k) ∧ Turns s dir a (some k) later k?' := by
  rw [List.append_cons] at h
  obtain ⟨k₁?, hfirst, hlater⟩ := h.exists_of_append
  obtain ⟨k₀?, -, hthis⟩ := hfirst.exists_of_append
  cases hthis with
  | cons holds turn rest =>
      cases rest
      cases turn with
      | refused wrong report _ => exact Or.inl ⟨_, wrong, report⟩
      | overflowed checked crowded report _ =>
          exact Or.inr (Or.inl ⟨_, checked, crowded, report⟩)
      | served serves _ => exact Or.inr (Or.inr ⟨_, _, serves, hfirst, hlater⟩)
      | dropped ended _ =>
          rw [Event.drops, hkeeps] at ended
          cases ended

end

end TokenAuthority
