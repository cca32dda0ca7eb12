import TokenAuthority.Proofs.Host
import TokenAuthority.Proofs.KeyFile.Activation

/-!
# Activation on a host

What an activation leaves on a host where permission bits bind the process and a file may have
several names. The document goes into the file that stands at the draft's place, under all its
names and with its owner and permission bits, or behind a link there. So the key file is replaced
as a whole where the draft is a file of its own that the process may make private; and where the
draft may be written but not moved, the document stays where it was written.
-/

namespace TokenAuthority.KeyFile

open FileTree (Spot privateMode)

variable {f : KeyFile} {k : SigningKey} {h h' : Host} {dir : Place}

theorem run_activate_host (f : KeyFile) (k : SigningKey) (h : Host) :
    (f.activate Host.fileSystem k).run h =
      match h.write f.draftPath (document k) with
      | (.error e, h') => (.error (.keyStore (.cannotWrite f.draftPath e)), h')
      | (.ok (), h') =>
        match h'.rename f.draftPath f.path with
        | .error e => (.error (.keyStore (.cannotReplace f.path e)), h')
        | .ok disk =>
          (.ok (),
            ({ h' with disk }.changed ({ h' with disk }.restrict f.path privateMode)).2) := by
  have hwrite : (Host.fileSystem.writePrivate f.draftPath (document k)).run h =
      h.write f.draftPath (document k) := rfl
  rw [run_activate_eq, hwrite]
  obtain ⟨written, h'⟩ := h.write f.draftPath (document k)
  cases written with
  | error e => rfl
  | ok _ =>
      have hrename : (Host.fileSystem.rename f.draftPath f.path).run h' =
          h'.changed (h'.rename f.draftPath f.path) :=
        Host.run_change (·.rename f.draftPath f.path) h'
      dsimp only
      rw [hrename]
      cases h'.rename f.draftPath f.path with
      | error e => rfl
      | ok disk =>
          have hrestrict : (Host.fileSystem.makePrivate f.path).run { h' with disk } =
              { h' with disk }.changed ({ h' with disk }.restrict f.path privateMode) :=
            Host.run_change (·.restrict f.path privateMode) { h' with disk }
          dsimp only [Host.changed]
          rw [hrestrict]
          rfl

/-! ### What an activation does -/

/-- The document of a key is in place of the key file, under permission bits and under all names
of the file that the draft was. The draft is gone, unless it was another name of the key file. -/
structure Arrived (k : SigningKey) (dir : Place) (h h' : Host) (mode : Nat) : Prop where
  within : h'.Within h
  node : ∀ q, h'.disk.tree.node? q =
    if q = draftPlace dir ∧ ¬h.disk.SameFile (draftPlace dir) (place dir) then none
    else if q = place dir ∨ h.disk.SameFile (draftPlace dir) q then
      some (.file mode (document k))
    else h.disk.tree.node? q
  owns : h'.owns (place dir) =
    ((h.disk.rights? (draftPlace dir)).isNone || h.owns (draftPlace dir))

/-- It has the permission bits of a private file, if the process owns it and the way there does
not lead through the key file; else it has those under which it was written. -/
structure Placed (f : KeyFile) (k : SigningKey) (dir : Place) (h h' : Host) (mode : Nat) : Prop
    extends Arrived k dir h h' mode where
  restricted : h'.owns (place dir) → f.Apart h.disk.tree h.here → mode = privateMode
  unrestricted : ¬(h'.owns (place dir) ∧ f.Apart h.disk.tree h.here) →
    mode = h.disk.writtenMode (draftPlace dir)

/-- All that an activation can do to a host. -/
inductive Replacement (f : KeyFile) (k : SigningKey) (h : Host) :
    Except AuthError Unit → Host → Prop
  /-- No file could be opened for the document. -/
  | unopened (why : FileError) :
      Replacement f k h (.error (.keyStore (.cannotWrite f.draftPath why))) h
  /-- The document could not be written to its end. -/
  | cut {above : Place} {name : String} {n : Nat} {why : FileError}
      (fault : h.fault? = some (n, why)) (free : h.disk.tree.Free above name)
      (draft : h.spot true true f.draftPath = .ok (h.disk.tree.under above name)) :
      Replacement f k h (.error (.keyStore (.cannotWrite f.draftPath why)))
        (h.filled (above ++ [name]) ((document k).take n))
  /-- The document may not be moved, and stays where it was written. -/
  | refused {above : Place} {name : String} {why : FileError} {dir : Place}
      (reaches : h.Reaches f.folder dir) (free : h.disk.tree.Free above name)
      (draft : h.spot true true f.draftPath = .ok (h.disk.tree.under above name))
      (refuses : h.Refuses dir "jwt-key.toml.tmp" "jwt-key.toml" why) :
      Replacement f k h (.error (.keyStore (.cannotReplace f.path why)))
        (h.filled (above ++ [name]) (document k))
  | placed {dir : Place} {mode : Nat} {h' : Host} (valid : FileTree.checkPath f.draftPath = .ok ())
      (reaches : h.Reaches f.folder dir)
      (plain : h.disk.tree.Free dir "jwt-key.toml.tmp") (placed : Placed f k dir h h' mode) :
      Replacement f k h (.ok ()) h'
  /-- The draft was a link, which is now in the place of the key file. -/
  | linked {dir : Place} {x : Spot} {target : String} {h' : Host}
      (reaches : h.Reaches f.folder dir)
      (link : h.disk.tree.node? (draftPlace dir) = some (.link target))
      (draft : h.spot true true f.draftPath = .ok x)
      (file : h'.disk.tree.node? (place dir) = some (.link target))
      (written : x.place ≠ place dir →
        ∃ mode, h'.disk.tree.node? x.place = some (.file mode (document k))) :
      Replacement f k h (.ok ()) h'

section

variable (hsound : h.disk.tree.Sound) (hplain : h.disk.tree.Free dir "jwt-key.toml.tmp")

/-- The names of the key file, once the document has come there. -/
def Named (h h' : Host) (dir : Place) : Prop :=
  ∀ q, h'.disk.SameFile (place dir) q ↔
    ¬(q = draftPlace dir ∧ ¬h.disk.SameFile (draftPlace dir) (place dir)) ∧
      (q = place dir ∨ h.disk.SameFile (draftPlace dir) q)

include hplain in
/-- Nothing is moved between two names of one file. -/
theorem arrived_of_sameFile (k : SigningKey)
    (hsame : h.disk.SameFile (draftPlace dir) (place dir)) :
    Arrived k dir h (h.filled (draftPlace dir) (document k)) (h.disk.writtenMode (draftPlace dir)) ∧
      Named h (h.filled (draftPlace dir) (document k)) dir := by
  have hname : ∀ q, q = place dir ∨ h.disk.SameFile (draftPlace dir) q ↔
      h.disk.SameFile (draftPlace dir) q := by
    intro q
    refine ⟨?_, Or.inr⟩
    rintro (rfl | hq)
    · exact hsame
    · exact hq
  refine ⟨⟨(Host.within_filled hplain _).2, fun q => ?_, ?_⟩, fun q => ?_⟩
  · have hthere : ¬(q = draftPlace dir ∧ ¬h.disk.SameFile (draftPlace dir) (place dir)) :=
      fun hq => hq.2 hsame
    simp only [hname]
    rw [if_neg hthere]
    exact Disk.node?_fill hplain h.user (document k) q
  · rw [← Host.owns_filled_self h (document k), Host.owns, Host.owns, Host.filled,
      ((Disk.sameFile_fill h.disk FileTree.place_ne_nil _ _ _ _).mpr hsame).rights?_eq]
  · rw [Host.filled, Disk.sameFile_fill h.disk FileTree.place_ne_nil, hname, ← hsame.congr_left]
    simp [hsame]

include hsound hplain in
theorem arrived_of_move (k : SigningKey)
    (hsame : ¬h.disk.SameFile (draftPlace dir) (place dir))
    (hfolder : ¬h.disk.tree.HasFolder (place dir)) {h₁ h₂ : Host}
    (h₁_eq : h₁ = h.filled (draftPlace dir) (document k))
    (h₂_eq : h₂ = { h₁ with disk := h₁.disk.move (draftPlace dir) (place dir) }) :
    Arrived k dir h h₂ (h.disk.writtenMode (draftPlace dir)) ∧ Named h h₂ dir := by
  have hnode : ∀ q, h₁.disk.tree.node? q = _ := fun q =>
    (congrArg (·.disk.tree.node? q) h₁_eq).trans (Disk.node?_fill hplain h.user (document k) q)
  have hself := hnode (draftPlace dir)
  rw [if_pos (.refl _ _)] at hself
  obtain ⟨hframe, hwithin⟩ := Host.within_filled hplain (document k)
  rw [← h₁_eq] at hframe hwithin
  have hmoved := Host.moved_move (h₁_eq ▸ Host.sound_filled hsound hplain (document k))
    FileTree.place_ne_nil (show place dir ≠ [] from FileTree.place_ne_nil) hself
    fun hf => hfolder (FileTree.hasFolder_of_frame?_eq hframe.symm hf)
  rw [← h₂_eq] at hmoved
  have hnames : ∀ q r, h₁.disk.SameFile q r ↔ h.disk.SameFile q r := fun q r =>
    (iff_of_eq (congrArg (·.disk.SameFile q r) h₁_eq)).trans
      (Disk.sameFile_fill h.disk FileTree.place_ne_nil h.user (document k) q r)
  refine ⟨⟨hmoved.within.trans hwithin, fun q => ?_, ?_⟩, fun q => ?_⟩
  · rw [hmoved.node]
    by_cases hq : q = place dir
    · subst hq
      rw [if_pos rfl, if_neg (fun h => place_ne_draftPlace h.1), if_pos (Or.inl rfl)]
    · rw [if_neg hq]
      by_cases hq' : q = draftPlace dir
      · rw [if_pos hq', if_pos ⟨hq', hsame⟩]
      · rw [if_neg hq', if_neg (fun h => hq' h.1), hnode]
        simp only [hq, false_or]
  · rw [hmoved.owns, h₁_eq, Host.owns_filled_self]
  · by_cases hq : q = place dir
    · subst hq
      simp [Disk.SameFile.refl]
    · by_cases hq' : q = draftPlace dir
      · subst hq'
        refine iff_of_false (fun hs => ?_) (fun h => h.1 ⟨rfl, hsame⟩)
        have hnone := hmoved.node (draftPlace dir)
        have hfile := hmoved.node (place dir)
        rw [if_neg hq, if_pos rfl] at hnone
        rw [if_pos rfl, ← hs.node?_eq, hnone] at hfile
        cases hfile
      · rw [hmoved.sameFile q hq' hq, hnames]
        simp [hq, hq']

end

theorem apart_iff {t : FileTree} {here : Place} (hdir : t.folderOf here f.folder = .ok dir) :
    f.Apart t here ↔
      (t.put (place dir) (.file privateMode [])).folderOf here f.folder = .ok dir := by
  refine ⟨fun ha => ha dir hdir, fun ha dir' hdir' => ?_⟩
  cases hdir.symm.trans hdir'
  exact ha

section

variable {mode : Nat} (harrived : Arrived k dir h h' mode)
include harrived

theorem Arrived.file : h'.disk.tree.node? (place dir) = some (.file mode (document k)) := by
  rw [harrived.node, if_neg fun hq => place_ne_draftPlace hq.1, if_pos (Or.inl rfl)]

/-- Of the folders and links, only what stood in place of the key file is gone. -/
theorem Arrived.frame? (hplain : h.disk.tree.Free dir "jwt-key.toml.tmp") :
    h'.disk.tree.frame? = (h.disk.tree.put (place dir) (.file privateMode [])).frame? := by
  funext q
  have hput := FileTree.node?_put h.disk.tree (show place dir ≠ [] from FileTree.place_ne_nil)
    (.file privateMode []) q
  have hnode := harrived.node q
  by_cases hq : q = place dir
  · rw [if_pos hq] at hput
    rw [hq] at hput ⊢
    rw [FileTree.frame?, FileTree.frame?, harrived.file, hput]
  · rw [if_neg hq] at hput
    rw [← FileTree.frame?_of_node? hput.symm]
    by_cases hsame : h.disk.SameFile (draftPlace dir) q
    · -- The names of the draft are names of a file, or of nothing, before and after.
      have hbefore : h.disk.tree.frame? q = none := by
        rw [FileTree.frame?, hsame.node?_eq]
        exact hplain.plain
      rw [hbefore, FileTree.frame?_eq_none_iff, hnode]
      split_ifs with hgone hnamed
      · exact Or.inl rfl
      · exact Or.inr ⟨_, _, rfl⟩
      · exact absurd (Or.inr hsame) hnamed
    · have hthere : ¬(q = draftPlace dir ∧ ¬h.disk.SameFile (draftPlace dir) (place dir)) := by
        rintro ⟨rfl, -⟩
        exact hsame (.refl _ _)
      refine FileTree.frame?_of_node? ?_
      rw [hnode, if_neg hthere, if_neg (by simp [hq, hsame])]

theorem Arrived.of_restricted {h'' : Host} (hnamed : Named h h' dir) {mode' : Nat}
    (hrestricted : h'.Restricted h'' (place dir) mode' (document k)) :
    Arrived k dir h h'' mode' := by
  refine ⟨hrestricted.within.trans harrived.within, fun q => ?_,
    hrestricted.owns.trans harrived.owns⟩
  rw [hrestricted.node]
  simp only [hnamed q, harrived.node q]
  split_ifs with h₁ h₂ h₃ <;> simp_all

/-- A document that has come in place of the key file is made private, if that can be done. -/
theorem Arrived.exists_placed (hnamed : Named h h' dir) (hsound : h.disk.tree.Sound)
    (hhere : h.disk.tree.HasFolder h.here) (hr : h.Reaches f.folder dir)
    (hcheck : FileTree.checkPath f.path = .ok ())
    (hplain : h.disk.tree.Free dir "jwt-key.toml.tmp")
    (hmode : mode = h.disk.writtenMode (draftPlace dir)) :
    ∃ mode', Placed f k dir h (h'.changed (h'.restrict f.path privateMode)).2 mode' := by
  have hway : f.Apart h.disk.tree h.here ↔ h'.disk.tree.folderOf h'.here f.folder = .ok dir := by
    rw [apart_iff hr.leads, harrived.within.here, FileTree.folderOf, FileTree.folderOf]
    constructor
    · exact FileTree.folderWalk_of_frame?_eq (harrived.frame? hplain)
    · exact FileTree.folderWalk_of_frame?_eq (harrived.frame? hplain).symm
  cases hrestrict : h'.restrict f.path privateMode with
  | ok disk =>
      obtain ⟨⟨dir', hr'⟩, -⟩ := Host.exists_reaches_of_restrict isFileName_file hrestrict
      have hdir := Host.folderOf_of_within harrived.within hr'.leads
      cases hr.leads.symm.trans hdir
      have howned := hr'.restrict_of_file isFileName_file hcheck harrived.file privateMode
      rw [← path, hrestrict] at howned
      split_ifs at howned with howns
      cases howned
      have hrestricted :=
        Host.restricted_restrict FileTree.place_ne_nil harrived.file privateMode
      exact ⟨privateMode, harrived.of_restricted hnamed hrestricted, fun _ _ => rfl,
        fun hno => absurd ⟨hrestricted.owns.trans howns, hway.mpr hr'.leads⟩ hno⟩
  | error why =>
      refine ⟨mode, harrived, fun howns hapart => ?_, fun _ => hmode⟩
      have hr' := hr.of_within harrived.within hsound hhere (hway.mp hapart)
      have howned : h'.owns (place dir) = true := howns
      rw [path, hr'.restrict_of_file isFileName_file hcheck harrived.file, if_pos howned]
        at hrestrict
      cases hrestrict

end

/-- A link that was the draft is in place of the key file, and the document is where the link
leads. -/
theorem replacement_of_link {above : Place} {name target : String} {h₁ h₂ : Host}
    (hsound : h.disk.tree.Sound) (hr : h.Reaches f.folder dir)
    (hfree : h.disk.tree.Free above name)
    (hleads : h.spot true true f.draftPath = .ok (h.disk.tree.under above name))
    (hlink : h.disk.tree.node? (draftPlace dir) = some (.link target))
    (h₁_eq : h₁ = h.filled (above ++ [name]) (document k))
    (hmoved : (∀ q, (h₂.disk.tree.node? q).map FileTree.bare =
        (h₁.disk.tree.node? q).map FileTree.bare) ∧
          h₁.disk.SameFile (draftPlace dir) (place dir) ∨
      ∀ q, (h₂.disk.tree.node? q).map FileTree.bare =
        (((h₁.disk.tree.erase (draftPlace dir)).put (place dir) (.link target)).node? q).map
          FileTree.bare) :
    Replacement f k h (.ok ()) h₂ := by
  have hframe := (Host.within_filled hfree (document k)).1
  have hsound' := Host.sound_filled hsound hfree (document k)
  have hwritten := Disk.node?_fill hfree h.user (document k) (above ++ [name])
  rw [if_pos (.refl _ _)] at hwritten
  have hlink' := FileTree.node?_of_frame?_eq hframe hlink (by simp)
  rw [← h₁_eq] at hlink' hsound'
  replace hwritten := (congrArg (·.disk.tree.node? (above ++ [name])) h₁_eq).trans hwritten
  refine .linked hr hlink hleads ?_ ?_
  · obtain ⟨hbare, hsame⟩ | hbare := hmoved
    · exact FileTree.node?_eq_link_of_bare (hbare _) (hsame.node?_eq.trans hlink')
    · exact (node?_moved_link hsound' hlink' hwritten hbare).1
  · rw [FileTree.place_under]
    intro hne
    obtain ⟨hbare, -⟩ | hbare := hmoved
    · exact FileTree.exists_node?_eq_file_of_bare (hbare _) hwritten
    · exact (node?_moved_link hsound' hlink' hwritten hbare).2 hne

theorem replacement_of_run (hsound : h.disk.tree.Sound) (hhere : h.disk.tree.HasFolder h.here)
    {answer : Except AuthError Unit}
    (hrun : (f.activate Host.fileSystem k).run h = (answer, h')) :
    Replacement f k h answer h' := by
  rw [run_activate_host] at hrun
  have hwriting := Host.writing hsound hhere f.draftPath (document k)
  generalize h.write f.draftPath (document k) = outcome at hwriting hrun
  obtain ⟨written, h₁⟩ := outcome
  dsimp only at hwriting
  cases hwriting with
  | unopened why =>
      cases hrun
      exact .unopened why
  | cut fault free leads =>
      cases hrun
      exact .cut fault free leads
  | @written above name free leads =>
      obtain ⟨hcheck, ⟨dir, hr⟩, hspot⟩ := Host.exists_reaches_of_spot isFileName_draft leads
      have hcheck' := checkPath_path hcheck
      obtain ⟨hframe, hwithin⟩ := Host.within_filled free (document k)
      have hr₁ := hr.of_within hwithin hsound hhere
        (FileTree.folderOf_of_frame?_eq hframe hr.leads)
      have hwritten := Disk.node?_fill free h.user (document k)
      have hnames := Disk.sameFile_fill h.disk
        (show above ++ [name] ≠ [] from FileTree.place_ne_nil) h.user (document k) (draftPlace dir)
        (place dir)
      dsimp only at hrun
      obtain ⟨target, hlink⟩ | ⟨rfl, rfl⟩ := link_or_eq_of_spot hcheck hr.leads hspot
      · have hlink' := FileTree.node?_of_frame?_eq hframe hlink (by simp)
        obtain ⟨hsame, hrename⟩ | ⟨-, -, hrename⟩ | ⟨why, hrefuses, hrename⟩ :=
          hr₁.rename_cases isFileName_draft isFileName_file hcheck hcheck' hlink' (by simp)
        · rw [draftPath, path, hrename] at hrun
          cases hrun
          exact replacement_of_link hsound hr free leads hlink rfl
            (Or.inl ⟨Host.bare_changed_restrict _ _ _, hsame⟩)
        · rw [draftPath, path, hrename] at hrun
          cases hrun
          refine replacement_of_link hsound hr free leads hlink rfl (Or.inr fun q => ?_)
          rw [← Disk.tree_move _ FileTree.place_ne_nil hlink']
          exact Host.bare_changed_restrict _ _ _ q
        · rw [draftPath, path, hrename] at hrun
          cases hrun
          exact .refused hr free leads (hrefuses.of_filled free (hr.hasFolder hsound hhere))
      · have hself := hwritten (draftPlace above)
        rw [if_pos (.refl _ _)] at hself
        obtain ⟨hsame, hrename⟩ | ⟨hsame, hfolder, hrename⟩ | ⟨why, hrefuses, hrename⟩ :=
          hr₁.rename_cases isFileName_draft isFileName_file hcheck hcheck' hself (by simp)
        · rw [draftPath, path, hrename] at hrun
          cases hrun
          obtain ⟨harrived, hnamed⟩ := arrived_of_sameFile free k (hnames.mp hsame)
          obtain ⟨mode, hplaced⟩ :=
            harrived.exists_placed hnamed hsound hhere hr hcheck' free rfl
          exact .placed hcheck hr free hplaced
        · rw [draftPath, path, hrename] at hrun
          cases hrun
          obtain ⟨harrived, hnamed⟩ := arrived_of_move hsound free k (mt hnames.mpr hsame)
            (fun hf => hfolder (FileTree.hasFolder_of_frame?_eq hframe hf)) rfl rfl
          obtain ⟨mode, hplaced⟩ :=
            harrived.exists_placed hnamed hsound hhere hr hcheck' free rfl
          exact .placed hcheck hr free hplaced
        · rw [draftPath, path, hrename] at hrun
          cases hrun
          exact .refused hr free leads (hrefuses.of_filled free (hr.hasFolder hsound hhere))

/-! ### When the key file is replaced as a whole -/

/-- A file that is not there yet is made for its owner alone. -/
theorem writtenMode_of_isNone (hnone : (h.disk.rights? (draftPlace dir)).isNone) :
    h.disk.writtenMode (draftPlace dir) = privateMode := by
  have hnumber : h.disk.number? (draftPlace dir) = none :=
    (Disk.rights?_eq_none_iff FileTree.place_ne_nil).mp (Option.isNone_iff_eq_none.mp hnone)
  rw [Disk.writtenMode, (Disk.number?_eq_none_iff FileTree.place_ne_nil).mp hnumber]

/-- The document is one for its owner alone, if it was written so or the process may make it
so. -/
theorem Placed.mode_eq_iff {mode : Nat} (hplaced : Placed f k dir h h' mode) :
    mode = privateMode ↔ h.disk.writtenMode (draftPlace dir) = privateMode ∨
      h.owns (draftPlace dir) ∧ f.Apart h.disk.tree h.here := by
  by_cases hown : h'.owns (place dir) ∧ f.Apart h.disk.tree h.here
  · refine iff_of_true (hplaced.restricted hown.1 hown.2) ?_
    obtain ⟨howns, hapart⟩ := hown
    rw [hplaced.owns, Bool.or_eq_true] at howns
    obtain hnone | howns := howns
    · exact Or.inl (writtenMode_of_isNone hnone)
    · exact Or.inr ⟨howns, hapart⟩
  · rw [hplaced.unrestricted hown]
    refine ⟨Or.inl, ?_⟩
    rintro (hmode | ⟨howns, hapart⟩)
    · exact hmode
    · exact absurd ⟨by rw [hplaced.owns, howns, Bool.or_true], hapart⟩ hown

theorem Placed.replaced_iff {mode : Nat} (hplaced : Placed f k dir h h' mode) :
    Replaced dir k h.disk.tree h'.disk.tree ↔
      (∀ q, q ≠ draftPlace dir → h.disk.SameFile (draftPlace dir) q →
        q ≠ place dir ∧ h.disk.tree.node? q = some (.file privateMode (document k))) ∧
      (h.disk.writtenMode (draftPlace dir) = privateMode ∨
        h.owns (draftPlace dir) ∧ f.Apart h.disk.tree h.here) := by
  rw [← hplaced.mode_eq_iff]
  constructor
  · intro hr
    have hmode : mode = privateMode := by
      have hfile := hplaced.file
      rw [hr.file] at hfile
      cases hfile
      rfl
    have hapart : ¬h.disk.SameFile (draftPlace dir) (place dir) := by
      intro hsame
      have hdraft := hplaced.node (draftPlace dir)
      rw [hr.draft, if_neg fun hgone => hgone.2 hsame, if_pos (Or.inr (.refl _ _))] at hdraft
      cases hdraft
    refine ⟨fun q hq hsame => ?_, hmode⟩
    have hne : q ≠ place dir := fun heq => hapart (heq ▸ hsame)
    refine ⟨hne, ?_⟩
    rw [← hr.other q hne hq, hplaced.node, if_neg fun hgone => hq hgone.1,
      if_pos (Or.inr hsame), hmode]
  · rintro ⟨hnames, rfl⟩
    have hapart : ¬h.disk.SameFile (draftPlace dir) (place dir) := fun hsame =>
      (hnames _ place_ne_draftPlace hsame).1 rfl
    refine ⟨hplaced.file, ?_, fun q hfile hdraft => ?_⟩
    · rw [hplaced.node, if_pos ⟨rfl, hapart⟩]
    · rw [hplaced.node, if_neg fun hgone => hdraft hgone.1]
      split_ifs with hnamed
      · exact ((hnames q hdraft (hnamed.resolve_left hfile)).2).symm
      · rfl

/-- A key with a secret of one octet. -/
def shortKey : SigningKey := ⟨"a", ⟨.hmac, .sha256⟩, .epoch, .secret [0], rfl⟩

end TokenAuthority.KeyFile
