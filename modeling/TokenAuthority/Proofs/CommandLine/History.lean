import TokenAuthority.Proofs.CommandLine.Turn

/-!
# One invocation after another

Every invocation begins with what the one before left in the files, and with nothing else. So a
token is good as long as no renewal and no revocation came to an end, and with keys in memory no
token outlives the invocation that prints it.
-/

namespace TokenAuthority

open CheckedSettings (Values)

section

variable {s : Surroundings Machine.Act} {dir : Place} {a : Algorithm} {e v : Event}
  {events earlier between later : List Event} {t t' : FileTree} {k? k?' : Option SigningKey}

/-! ### What is reported of a token -/

/-- Keys that are made in different parts of a history have different identifiers. -/
theorem id_ne_of_makes {place : StorePlace} {k k' : SigningKey} {d d' : Event}
    {first second : List Event}
    (hdistinct : (((first ++ second).flatMap (Event.keys s place)).map SigningKey.id).Nodup)
    (hd : d ∈ first) (hk : d.Makes s place a k) (hd' : d' ∈ second) (hk' : d'.Makes s place a k') :
    k'.id ≠ k.id := by
  rw [List.flatMap_append, List.map_append, List.nodup_append] at hdistinct
  intro hid
  exact hdistinct.2.2 _ (List.mem_map_of_mem (List.mem_flatMap_of_mem hd hk.mem)) _
    (List.mem_map_of_mem (List.mem_flatMap_of_mem hd' hk'.mem)) hid.symm

/-- A token is printed by an event that served with a key of which it is. -/
theorem Turns.exists_issue (h : Turns s dir a none (earlier ++ e :: later) k?')
    {principal : String} {lifetime : Option Int} {data : String} {lines : List String}
    (hcommand : e.command = .issue principal lifetime)
    (hreport : e.report = ⟨data :: lines, .done⟩) :
    ∃ k, (∃ d ∈ earlier ++ [e], d.Makes s (.ofPlace dir) a k) ∧ k.id ≠ "" ∧
      Turns s dir a (some k) later k?' ∧
      ∃ now duration token, IssuedToken.issue k principal now duration = .ok token ∧
        data = token.data ∧ lines = ["valid before: " ++ Rfc3339.write token.validBefore] := by
  obtain ⟨why, -, hrefused⟩ | ⟨values, -, -, hended⟩ | ⟨values, k, serves, hserved, hlater⟩ :=
    h.exists_serves (by rw [hcommand]; rfl)
  · rw [hrefused] at hreport
    cases hreport
  · rw [hended] at hreport
    cases hreport
  · obtain hnone | ⟨d, hd, made⟩ := hserved.exists_made k rfl
    · cases hnone
    · exact ⟨k, ⟨d, hd, made⟩, made.named, hlater, serves.exists_issue hcommand hreport⟩

/-- What a later verification reports of a token, by whether its key was dropped before. -/
theorem Turns.verdict {k : SigningKey}
    (h : Turns s dir a (some k) (between ++ v :: later) k?')
    (hmade : ∃ d ∈ earlier ++ [e], d.Makes s (.ofPlace dir) a k) (hnamed : k.id ≠ "")
    (hdistinct : (((earlier ++ e :: (between ++ v :: later)).flatMap
      (Event.keys s (.ofPlace dir))).map SigningKey.id).Nodup)
    (hfaithful : k.Faithful) {principal : String} {now : Instant} {duration : Duration}
    {token : IssuedToken} (hissue : IssuedToken.issue k principal now duration = .ok token)
    (hverify : v.command = .verify token.data) :
    ∃ T, Token.parse token.data = .ok T ∧ T.expiry? = some token.validBefore ∧
      v.report = match CheckedSettings.values v.settings with
        | .error why => ⟨[], .failed (.configuration why)⟩
        | .ok values =>
          if KeyRing.mostPlaces < values.capacity then ⟨[], .overflowed⟩
          else if between.any Event.drops then
            ⟨[], .failed (.verification (.unknownKey T.header.keyId))⟩
          else if (v.clock s (.ofPlace dir) values).seconds < token.validBefore.seconds then
            ⟨[principal], .done⟩
          else ⟨[], .failed (.verification .expired)⟩ := by
  obtain ⟨d, hd, made⟩ := hmade
  obtain ⟨T, hparse, hkeyId, hsubject, hexpiry, hsigned⟩ :=
    TokenAuthenticator.exists_signedBy_of_issue hnamed hissue hfaithful.signs
  refine ⟨T, hparse, hexpiry, ?_⟩
  obtain ⟨why, wrong, report⟩ | ⟨values, checked, crowded, report⟩ |
    ⟨values, k', serves, hserved, -⟩ := h.exists_serves (by rw [hverify]; rfl)
  · rw [wrong, report]
  · rw [checked, report]
    dsimp only
    rw [if_pos crowded]
  · have hdrops : (between ++ [v]).any Event.drops = between.any Event.drops := by
      simp [Event.drops, serves.keeps]
    rw [serves.checked]
    dsimp only
    rw [if_neg (Nat.not_lt.mpr serves.room), ← hdrops]
    obtain ⟨hkept, ⟨⟩⟩ | ⟨hdropped, hothers⟩ := hserved.of_some
    · rw [serves.report_of_own_key hverify hparse hkeyId hsigned, hkept,
        if_neg Bool.false_ne_true, hsubject, ← Instant.seconds_of_ofSeconds? hexpiry]
    · rw [hdropped, if_pos rfl]
      refine serves.report_of_other_key hverify hparse ?_
      rw [hkeyId]
      obtain ⟨d', hd', made'⟩ := hothers k' rfl
      rw [List.append_cons earlier, List.append_cons between] at hdistinct
      exact id_ne_of_makes hdistinct hd made (List.mem_append_left _ hd') made'

/-- A key file that is there is changed by no event that drops no key. -/
theorem Turns.files_of_mem (h : Turns s dir a k? events k?') (he : e ∈ events)
    (hkeeps : e.command.drops = false) {mode : Nat} {content : Bytes}
    (hfile : e.before.files.node? (KeyFile.place dir) = some (.file mode content)) :
    e.after.files = e.before.files := by
  obtain ⟨earlier, later, rfl⟩ := List.append_of_mem he
  obtain ⟨k₁?, -, hrest⟩ := h.exists_of_append
  cases hrest with
  | cons holds turn hlater =>
      cases turn with
      | refused _ _ files => exact files
      | dropped ended _ =>
          rw [Event.drops, hkeeps] at ended
          cases ended
      | served _ held | overflowed _ _ _ held =>
          obtain ⟨-, files⟩ | ⟨rfl, -⟩ := held
          · exact files
          · cases hfile.symm.trans holds.content

/-! ### Without a home for the key file -/

/-- Where the key file can have no home nothing is done. -/
theorem Event.Happened.of_vacant (hs : s.LeavesFiles)
    (hnames : ∀ name ∈ dir, Path.IsFileName name) (h : e.Happened s (.ofPlace dir))
    (hhere : e.before.files.HasFolder e.before.here) (hvacant : KeyFile.Vacant e.before.files dir)
    (hhome : ¬KeyFile.Home (.inFolder dir) e.before.files [] dir) :
    e.after.files = e.before.files ∧ e.report.ending ≠ .done := by
  cases hchecked : CheckedSettings.values e.settings with
  | error why =>
      obtain ⟨hreport, hafter⟩ := h.run_of_error hchecked
      rw [hreport, hafter]
      exact ⟨rfl, by simp⟩
  | ok v =>
      obtain ⟨why, m', hstart, hfiles⟩ := hvacant.exists_start_eq_error hs hnames hhere
        (fun hhome' => hhome (hhome'.fromAnywhere hnames [])) (v.at (.ofPlace dir))
      have hrun := h.run_of_values hchecked
      change (e.command.process s ((KeyFile.inFolder dir).store s Machine.fileSystem) _).run _ = _
        at hrun
      rw [Command.run_process, hstart] at hrun
      obtain ⟨hreport, hafter⟩ := Prod.mk.inj hrun
      rw [← hreport, ← hafter]
      exact ⟨hfiles, by simp⟩

theorem History.forall_of_vacant (hs : s.LeavesFiles)
    (hnames : ∀ name ∈ dir, Path.IsFileName name) (h : History s dir a t events t')
    (hvacant : KeyFile.Vacant t dir) (hhome : ¬KeyFile.Home (.inFolder dir) t [] dir) :
    ∀ e ∈ events, e.after.files = e.before.files ∧ e.report.ending ≠ .done := by
  induction h with
  | nil t => simp
  | cons happened _ here later ih =>
      obtain ⟨hfiles, hfailed⟩ := happened.of_vacant hs hnames here hvacant hhome
      rw [hfiles] at ih
      exact List.forall_mem_cons.mpr ⟨⟨hfiles, hfailed⟩, ih hvacant hhome⟩

/-! ### Without a key file -/

/-- Without a file every event makes a key of its own. -/
theorem Event.Happened.exists_serves_of_memory (hs : s.LeavesFiles) (h : e.Happened s .memory)
    {values : Values} (hchecked : CheckedSettings.values e.settings = .ok values)
    (hkeeps : e.command.drops = false) :
    (KeyRing.mostPlaces < values.capacity ∧ e.report = ⟨[], .overflowed⟩) ∨
    ∃ k ∈ e.keys s .memory, k.id ≠ "" ∧ e.Serves s .memory values k := by
  obtain ⟨-, -, hcapacity⟩ := CheckedSettings.of_values hchecked
  obtain ⟨k, m₁, hfresh, -, -⟩ := KeyFile.exists_freshKey hs values.algorithm e.before
  have hload : ((Event.store s .memory).load (values.at .memory).algorithm).run e.before =
      (.ok none, e.before) := rfl
  have hactivate : ((Event.store s .memory).activate k).run m₁ = (.ok (), m₁) := rfl
  obtain ⟨r, hkeys, -, hmade⟩ :=
    TokenAuthenticator.exists_start_of_fresh hcapacity hload hfresh hactivate
  have hstarts : e.Starts s .memory values _ _ _ := ⟨hchecked, hmade⟩
  obtain hcrowded | hroom := Nat.lt_or_ge KeyRing.mostPlaces values.capacity
  · refine Or.inl ⟨hcrowded, (h.overflows hstarts ?_).1⟩
    rw [hstarts.isAllocated_iff hkeys]
    exact Nat.not_le.mpr hcrowded
  · obtain ⟨hserves, hactivated, -⟩ := h.serves hs hstarts hkeys hroom hkeeps
    refine Or.inr ⟨k, ?_, (KeyRing.of_freshKey hfresh).2, hserves⟩
    rw [hactivated]
    exact List.mem_cons_self

/-- Without a file no token that is printed by one event is known to another. -/
theorem Event.report_of_memory (hs : s.LeavesFiles) (he : e.Happened s .memory)
    (hv : v.Happened s .memory)
    (hdistinct : ((e.keys s .memory ++ v.keys s .memory).map SigningKey.id).Nodup)
    {principal : String} {lifetime : Option Int} {data : String} {lines : List String}
    (hissue : e.command = .issue principal lifetime) (hreport : e.report = ⟨data :: lines, .done⟩)
    (hverify : v.command = .verify data) :
    ∃ T, Token.parse data = .ok T ∧
      v.report = match CheckedSettings.values v.settings with
        | .error why => ⟨[], .failed (.configuration why)⟩
        | .ok values =>
          if KeyRing.mostPlaces < values.capacity then ⟨[], .overflowed⟩
          else ⟨[], .failed (.verification (.unknownKey T.header.keyId))⟩ := by
  cases hchecked : CheckedSettings.values e.settings with
  | error why =>
      rw [(he.run_of_error hchecked).1] at hreport
      cases hreport
  | ok values =>
      obtain ⟨-, hended⟩ | ⟨k, hk, hnamed, hserves⟩ :=
        he.exists_serves_of_memory hs hchecked (by rw [hissue]; rfl)
      · rw [hended] at hreport
        cases hreport
      obtain ⟨now, duration, token, htoken, rfl, -⟩ := hserves.exists_issue hissue hreport
      obtain ⟨signature, -, -, hparse⟩ := IssuedToken.exists_parse_of_issue hnamed htoken
      refine ⟨_, hparse, ?_⟩
      cases hchecked' : CheckedSettings.values v.settings with
      | error why => exact (hv.run_of_error hchecked').1
      | ok values' =>
          dsimp only
          obtain ⟨hcrowded, hended⟩ | ⟨k', hk', -, hserves'⟩ :=
            hv.exists_serves_of_memory hs hchecked' (by rw [hverify]; rfl)
          · rw [hended, if_pos hcrowded]
          rw [if_neg (Nat.not_lt.mpr hserves'.room)]
          refine hserves'.report_of_other_key hverify hparse ?_
          rw [List.map_append, List.nodup_append] at hdistinct
          exact (hdistinct.2.2 _ (List.mem_map_of_mem hk) _ (List.mem_map_of_mem hk')).symm

end

/-! ### A token that is issued and verified -/

namespace Invocation

/-- An environment for keys in the one folder of a machine. -/
def environmentWith (capacity : String) : Environment :=
  [("TESSERA_JWT_SIGNATURE_ALGORITHM", "HS256"), ("TESSERA_KEYSTORE_TYPE", "plainfile"),
    ("TESSERA_KEYSTORE_PATH", "/keys"), ("TESSERA_MAX_IN_MEMORY_KEYS", capacity),
    ("TESSERA_TOKEN_LIFETIME", "60")]

/-- The settings of that environment. -/
def settingsWith (capacity : Nat) : TokenSettings :=
  ⟨"HS256", .plainFile, "/keys", capacity, 60⟩

theorem asksVersion_verify (data : String) :
    Arguments.asksVersion ["verify", "--", data] = false := by
  have hbefore : (["verify", "--", data].takeWhile fun s => !Arguments.isVersionWord s) =
      "verify" :: "--" :: [data].takeWhile fun s => !Arguments.isVersionWord s := rfl
  have hsorted : ∀ rest, Arguments.sortWords Arguments.globalOptions true
      ("verify" :: "--" :: rest) = some ⟨[], "verify" :: "--" :: rest⟩ := fun _ => rfl
  rw [Arguments.asksVersion, hbefore, hsorted]
  simp

theorem asks_of_read {m : Machine} (hhere : m.here = [])
    (hplain : m.files.isPresent [] "/.env" = false) {capacity : String} {n : Nat}
    {words : List String} {command : Command} (hversion : Arguments.asksVersion words = false)
    (hread : Arguments.read (environmentWith capacity) words =
      some ⟨none, ⟨settingsWith n, {}⟩, command⟩) :
    Asks ⟨environmentWith capacity, words⟩ m (settingsWith n) command := by
  refine ⟨hversion, ⟨none, ⟨settingsWith n, {}⟩, command⟩, {}, ?_, rfl, rfl⟩
  have hfolder : Machine.fileSystem.workingFolder.run m = (.ok "/", m) := by
    change (Except.ok (Path.ofNames m.here), m) = _
    rw [hhere]
    rfl
  have hpresent : (Machine.fileSystem.isPresent "/.env").run m = (false, m) := by
    change (m.files.isPresent m.here "/.env", m) = _
    rw [hhere, hplain]
  have henvironment : ((environmentWith capacity).addLocal Machine.fileSystem).run m =
      (environmentWith capacity, m) := by
    rw [Environment.addLocal, run_bind_of_run_eq hfolder]
    change ((environmentWith capacity).addNearest Machine.fileSystem ".env" 1 "/").run m = _
    rw [Environment.addNearest]
    change (Machine.fileSystem.isPresent "/.env" >>= _).run m = _
    rw [run_bind_of_run_eq hpresent]
    rfl
  rw [henvironment]
  exact hread

end Invocation

namespace Machine

/-- The machine with one folder, and a key in it. -/
def withKey (k : SigningKey) : Machine :=
  { withFolder with
    files := KeyFile.filed withFolder.files ["keys"] k
    drawn := 1 }

theorem vacant_withFolder : KeyFile.Vacant withFolder.files ["keys"] :=
  ⟨sound_withFolder, ⟨_, rfl⟩, fun _ _ h => (nomatch h), fun _ h => (nomatch h),
    fun _ h => (nomatch h)⟩

theorem holds_withKey (k : SigningKey) :
    KeyFile.Holds (.inFolder ["keys"]) (withKey k).files [] ["keys"] (some k) :=
  home_withFolder.holds_filed k

end Machine

namespace Event

open Invocation (environmentWith settingsWith)

/-- What takes place when the program is invoked on a machine. -/
def ofInvocation (m : Machine) (i : Invocation) (c : TokenSettings) (command : Command) : Event :=
  ⟨m, i, c, command, ((i.run Machine.surroundings).run m).1,
    ((i.run Machine.surroundings).run m).2⟩

theorem happened_ofInvocation {m : Machine} {i : Invocation} {c : TokenSettings}
    {command : Command} {place : StorePlace} (hasks : i.Asks m c command)
    (hsettled : (CheckedSettings.storePlace Machine.fileSystem c).run m = (.ok place, m)) :
    (ofInvocation m i c command).Happened Machine.surroundings place :=
  ⟨hasks, hsettled, Prod.mk.eta.symm⟩

/-- The first authenticator on the machine with one folder. -/
theorem exists_starts_withFolder {e : Event} {v : Values} (hbefore : e.before = .withFolder)
    (hchecked : CheckedSettings.values e.settings = .ok v)
    (halgorithm : v.algorithm = ⟨.hmac, .sha256⟩) :
    ∃ (k : SigningKey) (r : KeyRing), k.Faithful ∧ (∃ octets, k.material = .secret octets) ∧
      k.algorithm = v.algorithm ∧ k.id ≠ "" ∧ r.keys = [k] ∧
      e.Starts Machine.surroundings (.ofPlace ["keys"]) v ⟨r, v.lifetime.cut⟩ (.withKey k)
        [.activated k, .loaded none] := by
  obtain ⟨k, hfaithful, hmaterial, hown, hfresh⟩ := TokenAuthenticator.exists_fresh_withFolder
  have hhome : KeyFile.Home (.inFolder ["keys"]) Machine.withFolder.files [] ["keys"] :=
    Machine.home_withFolder
  have hload : ((store Machine.surroundings (.ofPlace ["keys"])).load v.algorithm).run
      .withFolder = (.ok none, .withFolder) :=
    KeyFile.run_load_of_absent Machine.surroundings (hhome.file.isPresent_of_none rfl) v.algorithm
  have hmade : (KeyRing.freshKey Machine.surroundings v.algorithm).run .withFolder =
      (.ok k, { Machine.withFolder with drawn := 1 }) := by
    have herased := KeyRing.erases_freshKey Machine.surroundings
      TokenAuthenticator.singleKey.algorithm ⟨.withFolder, []⟩
    rw [hfresh []] at herased
    rw [halgorithm]
    exact herased.symm
  have hactivate : ((store Machine.surroundings (.ofPlace ["keys"])).activate k).run
      { Machine.withFolder with drawn := 1 } = (.ok (), .withKey k) :=
    KeyFile.Home.run_activate (m := { Machine.withFolder with drawn := 1 }) hhome k
  obtain ⟨-, -, hcapacity⟩ := CheckedSettings.of_values hchecked
  obtain ⟨r, hkeys, -, hstart⟩ := TokenAuthenticator.exists_start_of_fresh
    (c := v.at (.ofPlace ["keys"])) hcapacity hload hmade hactivate
  refine ⟨k, r, hfaithful, hmaterial, hown.trans halgorithm.symm, (KeyRing.of_freshKey hmade).2,
    hkeys, hchecked, ?_⟩
  rw [hbefore]
  exact hstart

/-- A token is issued on the machine with one folder. -/
theorem exists_issued :
    ∃ (e : Event) (k : SigningKey) (token : IssuedToken),
      e.before = .withFolder ∧ e.settings = settingsWith 1 ∧ e.command = .issue "frodo" none ∧
      e.Happened Machine.surroundings (.ofPlace ["keys"]) ∧
      e.keys Machine.surroundings (.ofPlace ["keys"]) = [k] ∧ k.Faithful ∧
      k.algorithm = ⟨.hmac, .sha256⟩ ∧ e.after = .withKey k ∧
      e.report = ⟨[token.data, "valid before: " ++ Rfc3339.write token.validBefore], .done⟩ ∧
      ∃ T, Token.parse token.data = .ok T ∧ T.claims.expiresAt = 60 := by
  let e := ofInvocation .withFolder ⟨environmentWith "1", ["issue", "frodo"]⟩ (settingsWith 1)
    (.issue "frodo" none)
  have hresolve : Machine.withFolder.files.resolve [] (Path.under (Path.ofNames []) "/keys") =
      .ok (Path.ofNames ["keys"]) := by rfl
  have happened : e.Happened Machine.surroundings (.ofPlace ["keys"]) :=
    happened_ofInvocation (Invocation.asks_of_read rfl (by rfl) (by rfl) (by rfl))
      (CheckedSettings.run_storePlace_of_resolve rfl hresolve)
  let v : Values := ⟨⟨.hmac, .sha256⟩, 1, ⟨60000000000, by decide, by decide⟩⟩
  obtain ⟨k, r, hfaithful, ⟨octets, hmaterial⟩, hown, hnamed, hkeys, hstarts⟩ :=
    exists_starts_withFolder (e := e) (v := v) rfl rfl rfl
  have hbefore : IssuedToken.instant (Instant.epoch.seconds + v.lifetime.cut.secondsUp) =
      .ok ⟨60, 0, by decide, by decide, by decide⟩ := rfl
  obtain ⟨token, htoken⟩ := TokenAuthenticator.exists_issue_of_secret hmaterial
    (by decide : "frodo" ≠ "") rfl hbefore
  obtain ⟨-, -, -, -, hvalid, -⟩ := IssuedToken.issue_eq_ok_iff.mp htoken
  obtain ⟨T, hparse, -, -, hexpiry, -⟩ :=
    TokenAuthenticator.exists_signedBy_of_issue hnamed htoken hfaithful.signs
  obtain ⟨-, hactivated, -⟩ :=
    happened.serves Machine.leavesFiles_surroundings hstarts hkeys (by decide) rfl
  obtain ⟨-, hrun, -⟩ :=
    happened.run_of_starts hstarts ((hstarts.isAllocated_iff hkeys).mpr (by decide))
  obtain ⟨hreport, hafter⟩ :=
    Prod.mk.inj (hrun.symm.trans (Command.run_issue_of_token hkeys htoken))
  refine ⟨e, k, token, rfl, rfl, rfl, happened, hactivated, hfaithful, hown, hafter, hreport, T,
    hparse, ?_⟩
  rw [← Instant.seconds_of_ofSeconds? hexpiry]
  exact congrArg Instant.seconds (Except.ok.inj (hvalid.symm.trans hbefore))

/-- On the machine with a key this key is loaded, and none is made. -/
theorem exists_starts_withKey {e : Event} {v : Values} {k : SigningKey}
    (hbefore : e.before = .withKey k) (hchecked : CheckedSettings.values e.settings = .ok v)
    (hk : k.Faithful) (halgorithm : k.algorithm = v.algorithm) :
    ∃ t : TokenAuthenticator, t.ring.keys = [k] ∧
      e.Starts Machine.surroundings (.ofPlace ["keys"]) v t (.withKey k) [.loaded (some k)] := by
  have hholds := Machine.holds_withKey k
  have hload := KeyFile.run_load_of_document (m := .withKey k) Machine.surroundings
    hk.readsBack hk.onClock (hholds.home.file.isPresent_of_file hholds.content)
    (hholds.home.file.read_of_file hholds.content) v.algorithm
  rw [if_pos halgorithm] at hload
  change ((store Machine.surroundings (.ofPlace ["keys"])).load v.algorithm).run (.withKey k) =
    (.ok (some k), .withKey k) at hload
  obtain ⟨-, -, hcapacity⟩ := CheckedSettings.of_values hchecked
  obtain ⟨r, hkeys, -, hstart⟩ := TokenAuthenticator.exists_start_of_loaded
    (c := v.at (.ofPlace ["keys"])) hcapacity hload
  refine ⟨⟨r, v.lifetime.cut⟩, hkeys, hchecked, ?_⟩
  rw [hbefore]
  exact hstart

/-- A token is issued, and is asked about by the next event, which may hold so many keys. -/
theorem exists_history {capacity : String} {n : Nat} (hroom : n ≤ KeyRing.mostPlaces)
    (hread : ∀ data, Arguments.read (environmentWith capacity) ["verify", "--", data] =
      some ⟨none, ⟨settingsWith n, {}⟩, .verify data⟩) :
    ∃ (e v : Event) (token : IssuedToken),
      History Machine.surroundings ["keys"] ⟨.hmac, .sha256⟩ Machine.withFolder.files [e, v]
        v.after.files ∧
      (([e, v].flatMap (keys Machine.surroundings (.ofPlace ["keys"]))).map SigningKey.id).Nodup ∧
      (∀ k ∈ [e, v].flatMap (keys Machine.surroundings (.ofPlace ["keys"])), k.Faithful) ∧
      e.command = .issue "frodo" none ∧
      e.report = ⟨[token.data, "valid before: " ++ Rfc3339.write token.validBefore], .done⟩ ∧
      (∃ T, Token.parse token.data = .ok T ∧ T.claims.expiresAt = 60) ∧
      v.command = .verify token.data ∧ v.settings = settingsWith n ∧ v.before.clock = .epoch ∧
      ∀ values, CheckedSettings.values (settingsWith n) = .ok values →
        v.clock Machine.surroundings (.ofPlace ["keys"]) values = .epoch := by
  obtain ⟨e, k, token, hbefore, hsettings, hcommand, happened, hkeys, hfaithful, hown, hafter,
    hreport, hvalid⟩ := exists_issued
  let v := ofInvocation (.withKey k) ⟨environmentWith capacity, ["verify", "--", token.data]⟩
    (settingsWith n) (.verify token.data)
  have hresolve : (Machine.withKey k).files.resolve [] (Path.under (Path.ofNames []) "/keys") =
      .ok (Path.ofNames ["keys"]) := by rfl
  have happened' : v.Happened Machine.surroundings (.ofPlace ["keys"]) :=
    happened_ofInvocation
      (Invocation.asks_of_read rfl (by rfl) (Invocation.asksVersion_verify _) (hread _))
      (CheckedSettings.run_storePlace_of_resolve rfl hresolve)
  have hroom' : ∀ values, CheckedSettings.values v.settings = .ok values →
      values.capacity ≤ KeyRing.mostPlaces := by
    intro values hchecked
    rw [(CheckedSettings.of_values hchecked).2.1]
    exact hroom
  have hstarts : ∀ values, CheckedSettings.values v.settings = .ok values →
      ∃ t : TokenAuthenticator, t.ring.keys = [k] ∧
        v.Starts Machine.surroundings (.ofPlace ["keys"]) values t (.withKey k)
          [.loaded (some k)] := by
    intro values hchecked
    obtain ⟨ha, -, -⟩ := CheckedSettings.of_values hchecked
    exact exists_starts_withKey rfl hchecked hfaithful (hown.trans (Option.some.inj ha))
  have hkeys' : v.keys Machine.surroundings (.ofPlace ["keys"]) = [] := by
    cases hchecked : CheckedSettings.values v.settings with
    | error why => rw [keys, hchecked]
    | ok values =>
        obtain ⟨t, hring, hmade⟩ := hstarts values hchecked
        exact (happened'.serves Machine.leavesFiles_surroundings hmade hring
          (hroom' values hchecked) rfl).2.1
  have hall : [e, v].flatMap (keys Machine.surroundings (.ofPlace ["keys"])) = [k] := by
    rw [List.flatMap_cons, List.flatMap_cons, hkeys, hkeys']
    rfl
  have hlater : History Machine.surroundings ["keys"] ⟨.hmac, .sha256⟩ e.after.files [v]
      v.after.files := by
    rw [hafter]
    exact .cons happened' rfl (FileTree.hasFolder_root _) (.nil _)
  have hhistory := History.cons happened (by rw [hsettings]; rfl)
    (by rw [hbefore]; exact FileTree.hasFolder_root _) hlater
  rw [hbefore] at hhistory
  refine ⟨e, v, token, hhistory, ?_, ?_, hcommand, hreport, hvalid, rfl, rfl, rfl, ?_⟩
  · rw [hall]
    exact List.nodup_singleton _
  · rw [hall]
    exact List.forall_mem_singleton.mpr hfaithful
  · intro values hchecked
    obtain ⟨t, hring, hmade⟩ := hstarts values hchecked
    have hallocated := (hmade.isAllocated_iff hring).mpr (hroom' values hchecked)
    rw [clock, (happened'.run_of_starts hmade hallocated).1]
    rfl

end Event

/-! ### What becomes of a token -/

/-- In every history of a folder that has no key file at first, a token is accepted by a later
verification exactly if no renewal and no revocation came to an end in between and its second
of expiry has not come, and then tells its principal. Its key is unknown otherwise if one did,
and it is expired if none did. Nothing but a renewal or a revocation changes a key file that is
there. Without a file no token is known to another event. Settings that are refused keep an
event from doing anything, and one that asks for more places than memory can have ends before
its command. The keys that are made have distinct identifiers, those of the file are read back,
and make good signatures. -/
theorem History.report_of_verify {s : Surroundings Machine.Act} (hs : s.LeavesFiles) {dir : Place}
    (hnames : ∀ name ∈ dir, Path.IsFileName name) {a : Algorithm} {t t' : FileTree}
    {events : List Event} (hvacant : KeyFile.Vacant t dir) (h : History s dir a t events t')
    (hdistinct : ((events.flatMap (Event.keys s (.ofPlace dir))).map SigningKey.id).Nodup)
    (hfaithful : ∀ k ∈ events.flatMap (Event.keys s (.ofPlace dir)), k.Faithful) :
    (∀ earlier e between v later, events = earlier ++ e :: (between ++ v :: later) →
      ∀ principal lifetime data lines, e.command = .issue principal lifetime →
        e.report = ⟨data :: lines, .done⟩ → v.command = .verify data →
          ∃ T validBefore, Token.parse data = .ok T ∧ T.expiry? = some validBefore ∧
            lines = ["valid before: " ++ Rfc3339.write validBefore] ∧
            v.report = match CheckedSettings.values v.settings with
              | .error why => ⟨[], .failed (.configuration why)⟩
              | .ok values =>
                if KeyRing.mostPlaces < values.capacity then ⟨[], .overflowed⟩
                else if between.any Event.drops then
                  ⟨[], .failed (.verification (.unknownKey T.header.keyId))⟩
                else if (v.clock s (.ofPlace dir) values).seconds < validBefore.seconds then
                  ⟨[principal], .done⟩
                else ⟨[], .failed (.verification .expired)⟩) ∧
    (∀ e ∈ events, e.command.drops = false → ∀ mode content,
      e.before.files.node? (KeyFile.place dir) = some (.file mode content) →
        e.after.files = e.before.files) ∧
    ∀ e v : Event, e.Happened s .memory → v.Happened s .memory →
      ((e.keys s .memory ++ v.keys s .memory).map SigningKey.id).Nodup →
        ∀ principal lifetime data lines, e.command = .issue principal lifetime →
          e.report = ⟨data :: lines, .done⟩ → v.command = .verify data →
            ∃ T, Token.parse data = .ok T ∧
              v.report = match CheckedSettings.values v.settings with
                | .error why => ⟨[], .failed (.configuration why)⟩
                | .ok values =>
                  if KeyRing.mostPlaces < values.capacity then ⟨[], .overflowed⟩
                  else ⟨[], .failed (.verification (.unknownKey T.header.keyId))⟩ := by
  refine ⟨?_, ?_, fun e v he hv hdistinct' principal lifetime data lines =>
    Event.report_of_memory hs he hv hdistinct'⟩
  -- Where the key file can have no home every start fails, so that no token is printed.
  · rintro earlier e between v later rfl principal lifetime data lines hissue hreport hverify
    by_cases hhome : KeyFile.Home (.inFolder dir) t [] dir
    · obtain ⟨k?, hturns⟩ := turns_of_history hs hnames h (hvacant.holds hhome) (by simp) hfaithful
      obtain ⟨k, hmade, hnamed, hlater, now, duration, token, htoken, rfl, hlines⟩ :=
        hturns.exists_issue hissue hreport
      have hk : k.Faithful := by
        obtain ⟨d, hd, made⟩ := hmade
        refine hfaithful k (List.mem_flatMap_of_mem ?_ made.mem)
        rw [List.append_cons]
        exact List.mem_append_left _ hd
      obtain ⟨T, hparse, hexpiry, hverdict⟩ :=
        hlater.verdict hmade hnamed hdistinct hk htoken hverify
      exact ⟨T, token.validBefore, hparse, hexpiry, hlines, hverdict⟩
    · have hfailed := (h.forall_of_vacant hs hnames hvacant hhome e (by simp)).2
      rw [hreport] at hfailed
      exact absurd rfl hfailed
  · intro e he hkeeps mode content hfile
    by_cases hhome : KeyFile.Home (.inFolder dir) t [] dir
    · obtain ⟨k?, hturns⟩ := turns_of_history hs hnames h (hvacant.holds hhome) (by simp) hfaithful
      exact hturns.files_of_mem he hkeeps hfile
    · exact (h.forall_of_vacant hs hnames hvacant hhome e he).1

/-- A token that is good in the next event. -/
theorem History.report_of_verify_next :
    ∃ (e v : Event) (token : IssuedToken) (t : FileTree),
      History Machine.surroundings ["keys"] ⟨.hmac, .sha256⟩ Machine.withFolder.files [e, v] t ∧
      e.command = .issue "frodo" none ∧
      e.report = ⟨[token.data, "valid before: " ++ Rfc3339.write token.validBefore], .done⟩ ∧
      v.command = .verify token.data ∧ v.report = ⟨["frodo"], .done⟩ := by
  obtain ⟨e, v, token, hhistory, hdistinct, hfaithful, hissue, hreport, ⟨T, hparse, hexpiry⟩,
    hverify, hsettings, -, hclock⟩ := @Event.exists_history "1" 1 (by decide) fun data => rfl
  have hnames : ∀ name ∈ ["keys"], Path.IsFileName name :=
    List.forall_mem_singleton.mpr ⟨⟨by decide, by decide, by decide⟩, by decide, by decide⟩
  obtain ⟨htoken, -, -⟩ := History.report_of_verify Machine.leavesFiles_surroundings hnames
    Machine.vacant_withFolder hhistory hdistinct hfaithful
  obtain ⟨T', validBefore, hparse', hexpiry', -, hverdict⟩ :=
    htoken [] e [] v [] rfl "frodo" none _ _ hissue hreport hverify
  cases hparse.symm.trans hparse'
  have hvalid : validBefore.seconds = 60 :=
    (Instant.seconds_of_ofSeconds? hexpiry').trans hexpiry
  have hchecked : CheckedSettings.values (Invocation.settingsWith 1) =
      .ok ⟨⟨.hmac, .sha256⟩, 1, ⟨60000000000, by decide, by decide⟩⟩ := rfl
  refine ⟨e, v, token, _, hhistory, hissue, hreport, hverify, ?_⟩
  rw [hverdict, hsettings, hchecked]
  dsimp only
  rw [if_neg (by decide), hclock _ hchecked, hvalid]
  rfl

/-- With no room for a key a verification is refused, though the token is good. -/
theorem History.report_of_verify_no_room :
    ∃ (e v : Event) (token : IssuedToken) (T : Token) (t : FileTree),
      History Machine.surroundings ["keys"] ⟨.hmac, .sha256⟩ Machine.withFolder.files [e, v] t ∧
      KeyFile.Vacant Machine.withFolder.files ["keys"] ∧
      (([e, v].flatMap (Event.keys Machine.surroundings (.ofPlace ["keys"]))).map
        SigningKey.id).Nodup ∧
      (∀ k ∈ [e, v].flatMap (Event.keys Machine.surroundings (.ofPlace ["keys"])), k.Faithful) ∧
      e.command = .issue "frodo" none ∧
      e.report = ⟨[token.data, "valid before: " ++ Rfc3339.write token.validBefore], .done⟩ ∧
      Token.parse token.data = .ok T ∧ v.command = .verify token.data ∧
      v.settings.capacity = 0 ∧ v.before.clock.seconds < T.claims.expiresAt ∧
      v.report = ⟨[], .failed (.configuration .noKeys)⟩ := by
  obtain ⟨e, v, token, hhistory, hdistinct, hfaithful, hissue, hreport, ⟨T, hparse, hexpiry⟩,
    hverify, hsettings, hclock, -⟩ := @Event.exists_history "0" 0 (by decide) fun data => rfl
  refine ⟨e, v, token, T, _, hhistory, Machine.vacant_withFolder, hdistinct, hfaithful, hissue,
    hreport, hparse, hverify, ?_, ?_, ?_⟩
  · rw [hsettings]
    rfl
  · rw [hclock, hexpiry]
    decide
  · have hchecked : CheckedSettings.values v.settings = .error .noKeys := by
      rw [hsettings]
      rfl
    exact ((hhistory.happened v (by simp)).run_of_error hchecked).1

end TokenAuthority
