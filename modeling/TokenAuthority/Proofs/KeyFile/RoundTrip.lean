import TokenAuthority.Proofs.KeyFile.Loading
import TokenAuthority.Proofs.KeyFile.Replacement

/-!
# Keys that are loaded as they were activated

On a host without links on the way to the key file, an activation leaves the document of the key
in its place, whether the file is new or was there as a draft. A process that may read it there
loads the key as it was activated.
-/

namespace TokenAuthority

namespace Host

variable {h h' : Host} {folder file : String} {dir : Place}

/-- What surroundings leave of a host. -/
def layout (h : Host) : Disk × User × Place := (h.disk, h.user, h.here)

theorem leaves_surroundings : surroundings.Leaves layout :=
  ⟨fun _ => rfl, fun _ _ => rfl⟩

theorem eq_of_layout (hl : h'.layout = h.layout) :
    h' = { h with
      clock := h'.clock, random := h'.random, drawn := h'.drawn, fault? := h'.fault? } := by
  obtain ⟨disk, user, here, clock, random, drawn, fault?⟩ := h
  obtain ⟨disk', user', here', clock', random', drawn', fault?'⟩ := h'
  cases hl
  rfl

theorem Reaches.of_layout (hr : h.Reaches folder dir) (hl : h'.layout = h.layout) :
    h'.Reaches folder dir := by
  rw [eq_of_layout hl]
  exact ⟨hr.leads, hr.way, hr.inFolder⟩

theorem may_of_layout (hl : h'.layout = h.layout) (x : Access) (p : Place) :
    h'.may x p = h.may x p := by
  rw [eq_of_layout hl]
  rfl

/-- A file is read by those who may. -/
theorem Reaches.read_of_file (hr : h.Reaches folder dir) (hfile : Path.IsFileName file)
    (hcheck : FileTree.checkPath (Path.under folder file) = .ok ()) {mode : Nat} {content : Bytes}
    (hn : h.disk.tree.node? (dir ++ [file]) = some (.file mode content)) :
    h.isPresent (Path.under folder file) = true ∧
      h.read (Path.under folder file) =
        if h.may .read (dir ++ [file]) then .ok content else .error .denied := by
  have hfind := hr.find hfile hcheck hn (by simp)
  rw [isPresent, read, hfind]
  exact ⟨rfl, rfl⟩

/-- The owner of a private file may read it. -/
theorem may_read_of_private {p : Place} (hp : p ≠ []) (howns : h.owns p) {content : Bytes}
    (hn : h.disk.tree.node? p = some (.file FileTree.privateMode content)) :
    h.may .read p = true := by
  obtain ⟨i, hi, hnode⟩ := Disk.exists_number? hp hn
  rw [may, Disk.rights?_of_number? hi, Inode.rights, hnode]
  rw [owns, Disk.rights?_of_number? hi, Inode.rights, hnode] at howns
  change User.owns _ _ = true at howns
  change User.may _ _ _ = true
  rw [User.owns, Bool.or_eq_true, beq_iff_eq, beq_iff_eq] at howns
  rw [User.may, Bool.or_eq_true, beq_iff_eq]
  refine howns.imp id fun howner => ?_
  rw [if_pos howner]
  change FileTree.privateMode.testBit 8 = true
  decide

end Host

namespace KeyFile

open FileTree (privateMode checkPath)

variable {f : KeyFile} {k : SigningKey} {a : Algorithm} {h h' : Host} {dir : Place}
  {s : Surroundings Host.Act}

theorem looks_host : Looks Host.fileSystem := fun _ _ => ⟨rfl, rfl⟩

/-! ### What an activation leaves where there are no links -/

/-- The document of a key stands in the place of the key file, where the process can go. -/
structure Kept (f : KeyFile) (k : SigningKey) (dir : Place) (h : Host) (mode : Nat) : Prop where
  sound : h.disk.tree.Sound
  here : h.disk.tree.HasFolder h.here
  unlinked : ∀ path ∈ [f.path, f.draftPath], h.disk.tree.Unlinked h.here path
  valid : checkPath f.path = .ok ()
  reaches : h.Reaches f.folder dir
  file : h.disk.tree.node? (place dir) = some (.file mode (document k))

theorem Kept.of_layout {mode : Nat} (hk : Kept f k dir h mode) (hl : h'.layout = h.layout) :
    Kept f k dir h' mode := by
  have hreaches := hk.reaches.of_layout hl
  rw [Host.eq_of_layout hl] at hreaches ⊢
  exact ⟨hk.sound, hk.here, hk.unlinked, hk.valid, hreaches, hk.file⟩

section

variable (hsound : h.disk.tree.Sound) {mode : Nat} (harrived : Arrived k dir h h' mode)
include harrived

theorem Arrived.sound (hsound : h.disk.tree.Sound) (hfolder : h.disk.tree.HasFolder dir) :
    h'.disk.tree.Sound := by
  intro p name n hn
  refine harrived.within.folders p ?_
  rw [harrived.node] at hn
  split_ifs at hn with hgone hnamed
  · obtain hfile | hsame | ⟨hnumber, heq⟩ := hnamed
    · rw [(List.append_inj' hfile rfl).1]
      exact hfolder
    · rw [← (List.append_inj' hsame rfl).1]
      exact hfolder
    · obtain ⟨i, hi⟩ := Option.ne_none_iff_exists'.mp hnumber
      exact hsound p name _ (Disk.node?_of_number? (heq ▸ hi))
  · exact hsound p name n hn

/-- Where no link was in place of the key file, all folders and links are still there. -/
theorem Arrived.frame?_eq (hplain : h.disk.tree.Free dir "jwt-key.toml.tmp")
    (hlink : ∀ target, h.disk.tree.node? (place dir) ≠ some (.link target)) :
    h'.disk.tree.frame? = h.disk.tree.frame? := by
  have hfree : h.disk.tree.Free dir "jwt-key.toml" := by
    refine ⟨hplain.inFolder, FileTree.frame?_eq_none_iff.mpr ?_⟩
    cases hnode : h.disk.tree.node? (dir ++ ["jwt-key.toml"]) with
    | none => exact Or.inl rfl
    | some n =>
        cases n with
        | file mode content => exact Or.inr ⟨mode, content, rfl⟩
        | link target => exact absurd hnode (hlink target)
        | folder folderMode =>
            obtain ⟨mode', hmode'⟩ := harrived.within.folders _ ⟨folderMode, hnode⟩
            rw [harrived.file] at hmode'
            cases hmode'
  rw [harrived.frame? hplain]
  exact hfree.frame?_put privateMode []

end

/-- An activation that succeeds leaves the document in place of the key file, where the process
may read it unless it was written into the file of another. -/
theorem exists_kept_of_activate (hsound : h.disk.tree.Sound) (hhere : h.disk.tree.HasFolder h.here)
    (hlink : ∀ path ∈ [f.path, f.draftPath], h.disk.tree.Unlinked h.here path)
    (hrun : (f.activate Host.fileSystem k).run h = (.ok (), h')) :
    ∃ dir mode, h.Reaches f.folder dir ∧ Kept f k dir h' mode ∧
      (h.disk.tree.node? (draftPlace dir) = none ∨ h.owns (draftPlace dir) →
        h'.may .read (place dir)) := by
  have hfile : h.disk.tree.Unlinked h.here (Path.under f.folder "jwt-key.toml") :=
    hlink f.path (by simp)
  have hdraft : h.disk.tree.Unlinked h.here (Path.under f.folder "jwt-key.toml.tmp") :=
    hlink f.draftPath (by simp)
  cases replacement_of_run hsound hhere hrun with
  | @placed dir mode _ valid reaches plain placed =>
      have hcheck := checkPath_path valid
      have hframe := placed.frame?_eq plain
        (hfile.node?_ne_link isFileName_file hcheck reaches.leads)
      have hway : h'.disk.tree.folderOf h'.here f.folder = .ok dir := by
        rw [placed.within.here]
        exact FileTree.folderOf_of_frame?_eq hframe reaches.leads
      refine ⟨dir, mode, reaches, ⟨placed.sound hsound plain.inFolder, ?_, ?_, hcheck,
        reaches.of_within placed.within hsound hhere hway, placed.file⟩, fun hown => ?_⟩
      · rw [placed.within.here]
        exact placed.within.folders _ hhere
      · rw [placed.within.here]
        simp only [List.forall_mem_cons]
        exact ⟨hfile.of_frame?_eq isFileName_file hframe,
          hdraft.of_frame?_eq isFileName_draft hframe, by simp⟩
      · have howns : h'.owns (place dir) = true := by
          rw [placed.owns, Bool.or_eq_true]
          refine hown.imp_left fun hnone => ?_
          rw [Option.isNone_iff_eq_none, Disk.rights?_eq_none_iff FileTree.place_ne_nil]
          exact (Disk.number?_eq_none_iff FileTree.place_ne_nil).mpr hnone
        have hapart : f.Apart h.disk.tree h.here := by
          rw [apart_iff reaches.leads]
          rw [placed.within.here] at hway
          exact FileTree.folderWalk_of_frame?_eq (placed.frame? plain).symm hway
        obtain rfl := placed.restricted howns hapart
        exact Host.may_read_of_private FileTree.place_ne_nil howns placed.file
  | @linked dir x target _ reaches link draft file written =>
      obtain ⟨hcheck, -, -⟩ := Host.exists_reaches_of_spot isFileName_draft draft
      exact absurd link (hdraft.node?_ne_link isFileName_draft hcheck reaches.leads target)

/-! ### Loading what was activated -/

/-- On every host with this disk and for the same user, a key is loaded for its own algorithm and
none for another, and the disk is left alone. -/
def Yields (s : Surroundings Host.Act) (f : KeyFile) (k : SigningKey) (h : Host) : Prop :=
  ∀ h₁ : Host, h₁.layout = h.layout → ∀ a,
    ∃ h₂, (f.load s Host.fileSystem a).run h₁ =
        (.ok (if k.algorithm = a then some k else none), h₂) ∧ h₂.layout = h₁.layout

theorem Kept.yields {mode : Nat} (hk : Kept f k dir h mode) (hs : s.Leaves Host.layout)
    (hmaterial : k.material.ReadsBack) (hcreated : k.created.OnClock)
    (hread : h.may .read (place dir)) : Yields s f k h := by
  intro h₁ hl a
  have hk₁ := hk.of_layout hl
  have hread₁ : h₁.may .read (place dir) = true := (Host.may_of_layout hl _ _).trans hread
  obtain ⟨hpresent, hcontent⟩ := hk₁.reaches.read_of_file isFileName_file hk₁.valid hk₁.file
  rw [if_pos hread₁] at hcontent
  have hpresent' : (Host.fileSystem.isPresent f.path).run h₁ = (true, h₁) :=
    run_isPresent_of_looks looks_host hpresent
  have hload := run_load_of_read s hmaterial hcreated hpresent'
    (run_read_of_looks looks_host hcontent) a
  by_cases ha : k.algorithm = a
  · rw [if_pos ha] at hload ⊢
    exact ⟨_, hload, hs.1 h₁⟩
  · rw [if_neg ha] at hload ⊢
    exact ⟨h₁, hload, rfl⟩

/-- An RSA key with two small primes, whose identifier needs quotes. -/
def pairKey : SigningKey :=
  ⟨"\"\n", ⟨.rsaFixed, .sha256⟩, .epoch,
    .ofPrivateKey (.rsa ⟨3233, 17, 2753, 61, 53, 53, 49, 38, .any⟩), rfl⟩

theorem readsBack_pairKey : pairKey.material.ReadsBack :=
  ⟨by decide +kernel, by decide +kernel, by decide +kernel⟩

/-- A key that was made in a leap second that does not end a minute. -/
def oddKey : SigningKey :=
  { shortKey with created := (Instant.of? 3 1500000000).get rfl }

/-- The same with the instant that the document of the key tells. -/
def evenKey : SigningKey :=
  { shortKey with created := (Instant.of? 4 500000000).get rfl }

theorem document_oddKey : document oddKey = document evenKey := by
  have hshort : Rfc3339.writeShort oddKey.created = Rfc3339.writeShort evenKey.created := by
    decide +kernel
  rw [document, document, KeyDocument.write, KeyDocument.write]
  dsimp only [KeyDocument.ofKey, Option.map_some]
  rw [hshort]
  rfl

end KeyFile

end TokenAuthority
