import TokenAuthority.CommandLine.Run
import TokenAuthority.Proofs.Authenticator.Restart

/-!
# One invocation of the program

An invocation finds its settings without touching anything, makes an authenticator of its own,
and does one thing with it. With a key file in its home the authenticator has a single key, and
what the command does then depends on this key alone.
-/

namespace TokenAuthority

/-! ### What leaves a machine as it is -/

namespace Machine

variable {α β : Type}

/-- Whatever is found out, the machine stays as it is. -/
def Looks (x : Act α) : Prop :=
  ∀ m, (x.run m).2 = m

theorem Looks.run_eq {x : Act α} (h : Looks x) (m : Machine) : x.run m = ((x.run m).1, m) :=
  Prod.ext rfl (h m)

theorem Looks.pure (a : α) : Looks (Pure.pure a : Act α) := by
  intro m
  rfl

theorem Looks.look (f : FileTree → Place → α) : Looks (look f) := by
  intro m
  rfl

theorem Looks.bind {x : Act α} {f : α → Act β} (hx : Looks x) (hf : ∀ a, Looks (f a)) :
    Looks (x >>= f) := by
  intro m
  rw [StateT.run_bind, hx.run_eq m]
  exact hf _ m

theorem Looks.ite {p : Prop} [Decidable p] {x y : Act α} (hx : Looks x) (hy : Looks y) :
    Looks (if p then x else y) := by
  split_ifs
  · exact hx
  · exact hy

theorem looks_addNearest (name : String) (e : Environment) (fuel : Nat) (folder : String) :
    Looks (e.addNearest fileSystem name fuel folder) := by
  induction fuel generalizing folder with
  | zero => exact .pure e
  | succ fuel ih =>
      have hpresent : Looks (fileSystem.isPresent (Path.under folder name)) := .look _
      have hfolder : Looks (fileSystem.isFolder (Path.under folder name)) := .look _
      have hread : Looks (fileSystem.read (Path.under folder name)) := .look _
      rw [Environment.addNearest]
      refine hpresent.bind fun present => hfolder.bind fun isFolder => .ite ?_ ?_
      · refine hread.bind fun content => ?_
        cases content with
        | ok bs => exact .pure _
        | error why => exact .pure _
      · cases Path.parent? folder with
        | some above => exact ih above
        | none => exact .pure e

theorem looks_addLocal (e : Environment) : Looks (e.addLocal fileSystem) := by
  have hfolder : Looks fileSystem.workingFolder := .look _
  rw [Environment.addLocal]
  refine hfolder.bind fun folder => ?_
  cases folder with
  | ok folder => exact looks_addNearest ".env" e _ folder
  | error why => exact .pure e

theorem looks_readText (path : String) : Looks (fileSystem.readText path) := by
  have hread : Looks (fileSystem.read path) := .look _
  rw [FileSystem.readText]
  refine hread.bind fun content => ?_
  cases content with
  | error why => exact .pure _
  | ok bs =>
      dsimp only
      cases Utf8.decode? bs with
      | some text => exact .pure _
      | none => exact .pure _

theorem looks_loadSettings (a : Arguments) : Looks (a.loadSettings fileSystem) := by
  rw [Arguments.loadSettings]
  cases a.settingsFile with
  | none => exact .pure _
  | some path =>
      refine (looks_readText path).bind fun text => ?_
      cases text with
      | error why => exact .pure _
      | ok text => exact .pure _

end Machine

/-! ### The parts of an invocation -/

namespace Command

section

variable {m : Type → Type} [Monad m]

/-- An authenticator is made and a command is run on it. -/
def process (s : Surroundings m) (store : KeyStore m) (c : CheckedSettings) (command : Command) :
    m Report := do
  match ← TokenAuthenticator.start s store c with
  | .error e => return ⟨[], .failed e⟩
  | .ok t => if t.ring.isAllocated then command.run s store t else return ⟨[], .overflowed⟩

/-- Settings are checked, and a command is run with them. -/
def runWith (s : Surroundings m) (fs : FileSystem m) (c : TokenSettings) (command : Command) :
    m Report := do
  match ← CheckedSettings.ofSettings fs c with
  | .error e => return ⟨[], .failed e⟩
  | .ok checked => command.process s (TokenAuthenticator.storeOf s fs checked.store) checked

end

end Command

/-- The words that the program is given, and the environment. -/
structure Invocation where
  environment : Environment
  words : List String

namespace Invocation

/-- What an invocation asks for on a machine: a command, with the settings of its options, of
the environment, and of the files that these name. -/
structure Asks (i : Invocation) (m : Machine) (c : TokenSettings) (command : Command) : Prop where
  plain : Arguments.asksVersion i.words = false
  understood : ∃ args log,
    Arguments.read ((i.environment.addLocal Machine.fileSystem).run m).1 i.words = some args ∧
      args.command = command ∧
      ((args.loadSettings Machine.fileSystem).run m).1 = .ok ⟨c, log⟩

/-- What the program does when it is invoked so. -/
def run (s : Surroundings Machine.Act) (i : Invocation) : Machine.Act Report :=
  runProgram s Machine.fileSystem i.environment i.words

theorem Asks.run_eq {s : Surroundings Machine.Act} {i : Invocation} {m : Machine}
    {c : TokenSettings} {command : Command} (h : i.Asks m c command) :
    (i.run s).run m = (command.runWith s Machine.fileSystem c).run m := by
  obtain ⟨args, log, hread, rfl, hload⟩ := h.understood
  have henvironment := (Machine.looks_addLocal i.environment).run_eq m
  have hsettings := (Machine.looks_loadSettings args).run_eq m
  rw [hload] at hsettings
  rw [run, runProgram, run_bind_of_run_eq henvironment, h.plain, if_neg Bool.false_ne_true, hread]
  dsimp only
  rw [Arguments.run, run_bind_of_run_eq hsettings]
  rfl

end Invocation

/-! ### Settings -/

namespace CheckedSettings

variable {c : TokenSettings} {m : Machine} {place : StorePlace}

/-- Settings with the place of the key. -/
def Values.at (v : Values) (place : StorePlace) : CheckedSettings :=
  ⟨v.algorithm, place, v.capacity, v.lifetime⟩

theorem of_values {v : Values} (h : values c = .ok v) :
    Algorithm.ofName? c.algorithm = some v.algorithm ∧ v.capacity = c.capacity ∧
      0 < v.capacity := by
  rw [values] at h
  cases ha : Algorithm.ofName? c.algorithm with
  | none =>
      rw [ha] at h
      cases h
  | some a =>
      rw [ha] at h
      by_cases hcapacity : c.capacity = 0
      · rw [hcapacity] at h
        cases h
      · dsimp only at h
        rw [if_neg hcapacity] at h
        cases hd : Duration.ofSeconds? c.lifetime with
        | none =>
            rw [hd] at h
            cases h
        | some d =>
            rw [hd] at h
            cases h
            exact ⟨rfl, rfl, Nat.pos_of_ne_zero hcapacity⟩

/-- A folder that is there is known by its true path, and nothing is made. -/
theorem run_storePlace_of_resolve {path : String} (hstore : c.store = .plainFile)
    (hresolve : m.files.resolve m.here (Path.under (Path.ofNames m.here) c.folder) = .ok path) :
    (storePlace Machine.fileSystem c).run m = (.ok (.folder path), m) := by
  have hbase : Machine.fileSystem.workingFolder.run m = (.ok (Path.ofNames m.here), m) := rfl
  have hpresent : (Machine.fileSystem.isPresent (Path.under (Path.ofNames m.here) c.folder)).run m =
      (true, m) := by
    obtain ⟨found, hfind, -⟩ := bind_eq_ok_iff.mp hresolve
    change (m.files.isPresent m.here _, m) = _
    rw [FileTree.isPresent, hfind]
    rfl
  have hpath : (Machine.fileSystem.resolve (Path.under (Path.ofNames m.here) c.folder)).run m =
      (.ok path, m) := by
    change (m.files.resolve m.here _, m) = _
    rw [hresolve]
  have htrue : (trueFolder Machine.fileSystem c.folder (Path.ofNames m.here)).run m =
      (.ok path, m) := by
    rw [trueFolder]
    dsimp only
    rw [run_bind_of_run_eq hpresent, if_pos rfl, StateT.run_bind]
    change ((Machine.fileSystem.resolve _ >>= _).run m) = _
    rw [run_bind_of_run_eq hpath]
    rfl
  rw [storePlace, hstore]
  dsimp only
  rw [run_bind_of_run_eq hbase]
  dsimp only
  rw [run_bind_of_run_eq htrue]
  rfl

theorem run_ofSettings (hplace : (storePlace Machine.fileSystem c).run m = (.ok place, m)) :
    (ofSettings Machine.fileSystem c).run m =
      (((values c).map (Values.at · place)).mapError AuthError.configuration, m) := by
  rw [ofSettings]
  cases values c with
  | error why => rfl
  | ok v =>
      dsimp only
      rw [run_bind_of_run_eq hplace]
      rfl

end CheckedSettings

/-! ### Commands -/

namespace Command

/-- With settings that are refused nothing is done. -/
theorem run_runWith {s : Surroundings Machine.Act} {c : TokenSettings} {m : Machine}
    {place : StorePlace}
    (hplace : (CheckedSettings.storePlace Machine.fileSystem c).run m = (.ok place, m))
    (command : Command) :
    (command.runWith s Machine.fileSystem c).run m =
      match CheckedSettings.values c with
      | .error why => (⟨[], .failed (.configuration why)⟩, m)
      | .ok v =>
        (command.process s (TokenAuthenticator.storeOf s Machine.fileSystem place)
          (v.at place)).run m := by
  rw [runWith, run_bind_of_run_eq (CheckedSettings.run_ofSettings hplace)]
  cases CheckedSettings.values c with
  | error why => rfl
  | ok v => rfl

section

variable {σ : Type} {s : Surroundings (StateM σ)} {store : KeyStore (StateM σ)}
  {t : TokenAuthenticator} {k : SigningKey} {older : List SigningKey} {w w₁ w₂ : σ}

theorem run_process (c : CheckedSettings) (command : Command) :
    (command.process s store c).run w =
      match (TokenAuthenticator.start s store c).run w with
      | (.error e, w₁) => (⟨[], .failed e⟩, w₁)
      | (.ok t, w₁) =>
        if t.ring.isAllocated then (command.run s store t).run w₁
        else (⟨[], .overflowed⟩, w₁) := by
  rw [process, StateT.run_bind]
  obtain ⟨made, w₁⟩ := (TokenAuthenticator.start s store c).run w
  cases made with
  | error e => rfl
  | ok t =>
      change StateT.run (if t.ring.isAllocated then command.run s store t else
        pure ⟨[], .overflowed⟩) w₁ =
          if t.ring.isAllocated then (command.run s store t).run w₁ else (⟨[], .overflowed⟩, w₁)
      split_ifs
      · rfl
      · rfl

/-- Whether the current key is to be dropped. -/
def drops : Command → Bool
  | renew | revoke => true
  | issue _ _ | verify _ | inspect _ | info => false

theorem ring_of_withLifetime {lifetime : Option Int} {t' : TokenAuthenticator}
    (h : withLifetime t lifetime = .ok t') : t'.ring = t.ring := by
  cases lifetime with
  | none =>
      cases h
      rfl
  | some n =>
      rw [withLifetime] at h
      cases hd : Duration.ofSeconds? n with
      | none =>
          rw [hd] at h
          cases h
      | some d =>
          rw [hd] at h
          cases h
          rfl

theorem run_runIssue (hkeys : t.ring.keys = k :: older) (principal : String)
    (lifetime : Option Int) :
    (runIssue s store t principal lifetime).run w =
      match withLifetime t lifetime with
      | .error e => (⟨[], .failed e⟩, w)
      | .ok t' =>
        (.of (IssuedToken.issue k principal (s.now.run w).1 t'.lifetime) fun token =>
          [token.data, "valid before: " ++ Rfc3339.write token.validBefore], (s.now.run w).2) := by
  rw [runIssue]
  cases htimed : withLifetime t lifetime with
  | error e => rfl
  | ok t' =>
      rw [← ring_of_withLifetime htimed] at hkeys
      dsimp only
      rw [run_bind_of_run_eq (TokenAuthenticator.run_issue_of_keys hkeys principal w)]
      rfl

theorem run_issue_of_token (hkeys : t.ring.keys = k :: older) {principal : String}
    {token : IssuedToken}
    (htoken : IssuedToken.issue k principal (s.now.run w).1 t.lifetime = .ok token) :
    ((issue principal none).run s store t).run w =
      (⟨[token.data, "valid before: " ++ Rfc3339.write token.validBefore], .done⟩,
        (s.now.run w).2) := by
  change (runIssue s store t principal none).run w = _
  rw [run_runIssue hkeys]
  change (Report.of (IssuedToken.issue k principal (s.now.run w).1 t.lifetime) _, _) = _
  rw [htoken]
  rfl

variable (s store) in
/-- A command that drops no key does nothing with the store, if there is a key. -/
theorem exists_run_of_not_drops (hkeys : t.ring.keys = k :: older) {command : Command}
    (h : command.drops = false) (w : σ) :
    ∃ report w', (command.run s store t).run w = (report, w') ∧
      (w' = w ∨ w' = (s.now.run w).2) := by
  cases command with
  | issue principal lifetime =>
      change ∃ report w', (runIssue s store t principal lifetime).run w = (report, w') ∧ _
      rw [run_runIssue hkeys]
      cases withLifetime t lifetime with
      | error e => exact ⟨_, _, rfl, Or.inl rfl⟩
      | ok t' => exact ⟨_, _, rfl, Or.inr rfl⟩
  | verify token => exact ⟨_, _, rfl, Or.inr rfl⟩
  | inspect token => exact ⟨_, _, rfl, Or.inl rfl⟩
  | info => exact ⟨_, _, rfl, Or.inl rfl⟩
  | renew => cases h
  | revoke => cases h

/-- What is printed about a token, where one is. -/
theorem exists_issue_of_report (hkeys : t.ring.keys = k :: older) {principal : String}
    {lifetime : Option Int} {data : String} {lines : List String}
    (h : ((run s store t (.issue principal lifetime)).run w).1 = ⟨data :: lines, .done⟩) :
    ∃ now duration token, IssuedToken.issue k principal now duration = .ok token ∧
      data = token.data ∧ lines = ["valid before: " ++ Rfc3339.write token.validBefore] := by
  change ((runIssue s store t principal lifetime).run w).1 = _ at h
  rw [run_runIssue hkeys] at h
  cases htimed : withLifetime t lifetime with
  | error e =>
      rw [htimed] at h
      cases h
  | ok t' =>
      rw [htimed] at h
      dsimp only at h
      cases htoken : IssuedToken.issue k principal (s.now.run w).1 t'.lifetime with
      | error e =>
          rw [htoken] at h
          cases h
      | ok token =>
          rw [htoken] at h
          cases h
          exact ⟨_, _, token, htoken, rfl, rfl⟩

theorem run_renew (made : (KeyRing.freshKey s t.ring.algorithm).run w = (.ok k, w₁))
    (activated : (store.activate k).run w₁ = (.ok (), w₂)) :
    (renew.run s store t).run w = (⟨["current signing key: " ++ k.id], .done⟩, w₂) := by
  have hrenew : (t.renew s store).run w =
      ((.ok k.id, { t with ring := t.ring.install k }), w₂) := by
    rw [TokenAuthenticator.renew,
      run_bind_of_run_eq (KeyRing.run_rotate_eq_ok made activated)]
    rfl
  rw [run, run_bind_of_run_eq hrenew]
  rfl

theorem run_revoke (discarded : store.discard.run w = (.ok (), w₁)) :
    (revoke.run s store t).run w = (⟨["all signing keys revoked"], .done⟩, w₁) := by
  have hclear : (t.ring.clear store).run w = ((.ok (), t.ring.cleared), w₁) := by
    rw [KeyRing.run_clear, discarded]
  have hrevoke : (t.revoke store).run w = ((.ok (), { t with ring := t.ring.cleared }), w₁) := by
    rw [TokenAuthenticator.revoke, run_bind_of_run_eq hclear]
    rfl
  rw [run, run_bind_of_run_eq hrevoke]
  rfl

end

end Command

end TokenAuthority
