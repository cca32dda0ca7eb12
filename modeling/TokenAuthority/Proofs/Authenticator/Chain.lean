import TokenAuthority.Authenticator.Chain
import TokenAuthority.Proofs.Authenticator.Verdict

/-!
# The first decisive outcome of a chain

A chain is compared with a poll, in which every authenticator that supports the credential is
asked, whatever the others said. The chain answers with the first outcome of the poll that
decides, or else with the last one, and it asks nobody beyond the authenticator that decides.
Whoever does not support the credential is as good as absent.
-/

namespace TokenAuthority

namespace Chain

/-- What an authenticator says to a credential, if it does not fail. -/
abbrev Outcome := Except AuthError Verdict

/-- Whether an outcome is decisive: a failure or an acceptance. -/
def decides : Outcome → Bool
  | .error _ => true
  | .ok verdict => verdict.isAccepted

/-- The first decisive outcome, or else the last one; `last` stands if there are none. -/
def settle (last : Verdict) (outcomes : List Outcome) : Outcome :=
  (outcomes.find? decides).getD (outcomes.getLast?.getD (.ok last))

/-- The outcomes up to the first decisive one. -/
def asked (poll : List (Nat × Outcome)) : List (Nat × Outcome) :=
  poll.take (poll.findIdx (fun entry => decides entry.2) + 1)

section

variable {last : Verdict} {outcome : Outcome} {cause : String}

theorem settle_cons_of_decides (h : decides outcome) (outcomes : List Outcome) :
    settle last (outcome :: outcomes) = outcome := by
  rw [settle, List.find?_cons_of_pos h, Option.getD_some]

theorem settle_cons_rejected (outcomes : List Outcome) :
    settle last (.ok (.rejected cause) :: outcomes) = settle (.rejected cause) outcomes := by
  have hundecided : ¬decides (.ok (.rejected cause)) := Bool.false_ne_true
  rw [settle, List.find?_cons_of_neg hundecided, settle, List.getLast?_cons, Option.getD_some]

theorem asked_cons_of_decides {place : Nat} (h : decides outcome) (poll : List (Nat × Outcome)) :
    asked ((place, outcome) :: poll) = [(place, outcome)] := by
  simp [asked, List.findIdx_cons, h]

theorem asked_cons_rejected {place : Nat} (poll : List (Nat × Outcome)) :
    asked ((place, .ok (.rejected cause)) :: poll) =
      (place, .ok (.rejected cause)) :: asked poll := by
  simp [asked, List.findIdx_cons, decides, Verdict.isAccepted]

end

/-! ### Passing over -/

section

variable {m : Type → Type} [Monad m] {c : Credential} {a : Authenticator m}

theorem authenticateOr_cons_of_not_supports (h : a.supports c = false) (last : Verdict)
    (chain : Chain m) : authenticateOr c last (a :: chain) = authenticateOr c last chain := by
  rw [authenticateOr, h]
  rfl

/-- Whoever does not support the credential may be left out, wherever it stands. -/
theorem authenticateOr_append_cons (h : a.supports c = false) (last : Verdict)
    (before after : Chain m) :
    authenticateOr c last (before ++ a :: after) = authenticateOr c last (before ++ after) := by
  induction before generalizing last with
  | nil => exact authenticateOr_cons_of_not_supports h last after
  | cons b before ih =>
      rw [List.cons_append, List.cons_append, authenticateOr, authenticateOr]
      simp only [ih]

end

/-! ### Watching -/

section

variable {σ : Type}

/-- A world, and who was asked in it, at which place and with which outcome. -/
structure Watched (σ : Type) where
  world : σ
  asked : List (Nat × Outcome)

/-- An authenticator at a place, with a note each time that it is asked. -/
def noted (place : Nat) (a : Authenticator (StateM σ)) : Authenticator (StateM (Watched σ)) where
  supports := a.supports
  authenticate c := do
    let w ← get
    let (outcome, world) := (a.authenticate c).run w.world
    set (Watched.mk world (w.asked ++ [(place, outcome)]))
    return outcome

/-- The chain with notes, its places counted from `first` on. -/
def watched (first : Nat) (chain : Chain (StateM σ)) : Chain (StateM (Watched σ)) :=
  (chain.zipIdx first).map fun (a, place) => noted place a

/-- Everyone who supports the credential is asked in order, whatever the others say. -/
def poll (c : Credential) (first : Nat) (chain : Chain (StateM σ)) :
    StateM σ (List (Nat × Outcome)) :=
  ((chain.zipIdx first).filter fun (a, _) => a.supports c).mapM fun (a, place) => do
    return (place, ← a.authenticate c)

variable {c : Credential} {a : Authenticator (StateM σ)} {first : Nat}

theorem watched_cons (chain : Chain (StateM σ)) :
    watched first (a :: chain) = noted first a :: watched (first + 1) chain := rfl

theorem poll_cons_of_not_supports (h : a.supports c = false) (chain : Chain (StateM σ)) :
    poll c first (a :: chain) = poll c (first + 1) chain := by
  rw [poll, List.zipIdx_cons, List.filter_cons_of_neg (by simp [h]), poll]

theorem run_poll_cons (h : a.supports c) (chain : Chain (StateM σ)) (w : σ) :
    ((poll c first (a :: chain)).run w).1 =
      (first, ((a.authenticate c).run w).1) ::
        ((poll c (first + 1) chain).run ((a.authenticate c).run w).2).1 := by
  rw [poll, List.zipIdx_cons, List.filter_cons_of_pos (by exact h), List.mapM_cons]
  rfl

/-- What a chain does with the outcome of its first authenticator. -/
theorem run_authenticateOr_cons (h : a.supports c) (last : Verdict) (chain : Chain (StateM σ))
    (w : σ) :
    (authenticateOr c last (a :: chain)).run w =
      match (a.authenticate c).run w with
      | (.ok (.rejected cause), w₁) => (authenticateOr c (.rejected cause) chain).run w₁
      | (outcome, w₁) => (outcome, w₁) := by
  rw [authenticateOr, if_pos h, StateT.run_bind]
  obtain ⟨e | principal | cause, w₁⟩ := (a.authenticate c).run w
  · rfl
  · rfl
  · rfl

theorem run_noted (place : Nat) (a : Authenticator (StateM σ)) (w : Watched σ) :
    ((noted place a).authenticate c).run w =
      (((a.authenticate c).run w.world).1,
        ⟨((a.authenticate c).run w.world).2,
          w.asked ++ [(place, ((a.authenticate c).run w.world).1)]⟩) := rfl

/-- A chain settles on the outcomes of the poll. -/
theorem run_authenticateOr (c : Credential) (chain : Chain (StateM σ)) (first : Nat)
    (last : Verdict) (w : σ) :
    ((authenticateOr c last chain).run w).1 =
      settle last (((poll c first chain).run w).1.map Prod.snd) := by
  induction chain generalizing first last w with
  | nil => rfl
  | cons a chain ih =>
      cases hsupports : a.supports c with
      | false =>
          rw [authenticateOr_cons_of_not_supports hsupports, poll_cons_of_not_supports hsupports]
          exact ih (first + 1) last w
      | true =>
          rw [run_authenticateOr_cons hsupports, run_poll_cons hsupports, List.map_cons]
          obtain ⟨e | principal | cause, w₁⟩ := (a.authenticate c).run w
          · exact (settle_cons_of_decides rfl _).symm
          · exact (settle_cons_of_decides rfl _).symm
          · rw [settle_cons_rejected]
            exact ih (first + 1) (.rejected cause) w₁

/-- To watch a chain changes nothing, and those who are asked are the poll up to the first that
decides. -/
theorem run_authenticateOr_watched (c : Credential) (chain : Chain (StateM σ)) (first : Nat)
    (last : Verdict) (w : Watched σ) :
    (authenticateOr c last (watched first chain)).run w =
      (((authenticateOr c last chain).run w.world).1,
        ⟨((authenticateOr c last chain).run w.world).2,
          w.asked ++ asked ((poll c first chain).run w.world).1⟩) := by
  induction chain generalizing first last w with
  | nil =>
      change _ = (_, Watched.mk _ (w.asked ++ []))
      rw [List.append_nil]
      rfl
  | cons a chain ih =>
      have hsame : (noted first a).supports c = a.supports c := rfl
      cases hsupports : a.supports c with
      | false =>
          rw [watched_cons, authenticateOr_cons_of_not_supports (hsame.trans hsupports),
            authenticateOr_cons_of_not_supports hsupports, poll_cons_of_not_supports hsupports]
          exact ih (first + 1) last w
      | true =>
          rw [watched_cons, run_authenticateOr_cons (hsame.trans hsupports),
            run_authenticateOr_cons hsupports, run_poll_cons hsupports, run_noted]
          obtain ⟨e | principal | cause, w₁⟩ := (a.authenticate c).run w.world
          · rw [asked_cons_of_decides rfl]
          · rw [asked_cons_of_decides rfl]
          · rw [asked_cons_rejected]
            refine (ih (first + 1) (.rejected cause) _).trans ?_
            rw [List.append_assoc]
            rfl

end

/-! ### Chains of authenticators of tokens -/

section

open TokenAuthenticator

variable {σ : Type} {s : Surroundings (StateM σ)}

/-- What authenticators of tokens make of a text, each at the instant that it is asked. -/
def verifications (s : Surroundings (StateM σ)) (data : String) (ts : List TokenAuthenticator) :
    StateM σ (List (Except Refusal String)) :=
  ts.mapM fun t => do return t.verify data (← s.now)

/-- What a caller learns from a verification. -/
def learned : Except Refusal String → Outcome
  | .ok principal => .ok (.accepted principal)
  | .error _ => .ok (.rejected notAuthenticated)

theorem run_verifications_cons (t : TokenAuthenticator) (ts : List TokenAuthenticator)
    (data : String) (w : σ) :
    ((verifications s data (t :: ts)).run w).1 =
      t.verify data (s.now.run w).1 :: ((verifications s data ts).run (s.now.run w).2).1 := by
  rw [verifications, List.mapM_cons]
  rfl

/-- Authenticators of tokens are all asked about a text, and say what it is about it. -/
theorem run_poll_bearer (data : String) (ts : List TokenAuthenticator) (first : Nat) (w : σ) :
    ((poll (.bearer data) first (ts.map (toAuthenticator s))).run w).1.map Prod.snd =
      ((verifications s data ts).run w).1.map learned := by
  induction ts generalizing first w with
  | nil => rfl
  | cons t ts ih =>
      have hsupports : (t.toAuthenticator s).supports (.bearer data) := rfl
      rw [List.map_cons, run_poll_cons hsupports, run_verifications_cons, List.map_cons,
        List.map_cons]
      refine congrArg₂ List.cons ?_ (ih (first + 1) (s.now.run w).2)
      exact judge_bearer

theorem authenticateOr_of_no_bearer {c : Credential} (h : c.bearer? = none) (last : Verdict)
    (ts : List TokenAuthenticator) :
    authenticateOr c last (ts.map (toAuthenticator s)) = return .ok last := by
  induction ts with
  | nil => rfl
  | cons t ts ih =>
      have hunsupported : (t.toAuthenticator s).supports c = false := by
        change c.bearer?.isSome = false
        rw [h]
        rfl
      rw [List.map_cons, authenticateOr_cons_of_not_supports hunsupported, ih]

/-- A text is accepted for the first subject that is found, and else it is rejected. -/
theorem settle_learned (answers : List (Except Refusal String)) (cause : String) :
    ∃ cause', settle (.rejected cause) (answers.map learned) =
      match answers.findSome? Except.toOption with
      | some principal => .ok (.accepted principal)
      | none => .ok (.rejected cause') := by
  induction answers generalizing cause with
  | nil => exact ⟨cause, rfl⟩
  | cons answer answers ih =>
      cases answer with
      | ok principal => exact ⟨cause, settle_cons_of_decides rfl _⟩
      | error e =>
          rw [List.map_cons, learned, settle_cons_rejected]
          exact ih notAuthenticated

theorem run_authenticate_bearer (data : String) (ts : List TokenAuthenticator) (w : σ) :
    ∃ cause, ((authenticate (ts.map (toAuthenticator s)) (.bearer data)).run w).1 =
      match ((verifications s data ts).run w).1.findSome? Except.toOption with
      | some principal => .ok (.accepted principal)
      | none => .ok (.rejected cause) := by
  rw [authenticate, run_authenticateOr _ _ 0, run_poll_bearer]
  exact settle_learned _ _

end

/-- A chain answers with the first outcome that decides, among those of the authenticators that
support the credential; if none decides, with the last outcome, and if there is none, with the
verdict on a credential that nobody supports. Those who are asked are those who support the
credential, up to the one that decides. An authenticator that does not support it may be put in
anywhere. A chain of authenticators of tokens never fails, and accepts a text for the subject
that the first of them finds that verifies it. -/
theorem authenticate_first_decisive {σ : Type} (chain : Chain (StateM σ)) (c : Credential)
    (w : σ) :
    let outcomes := ((poll c 0 chain).run w).1
    ((chain.authenticate c).run w).1 = settle unsupported (outcomes.map Prod.snd) ∧
    ((watched 0 chain).authenticate c).run ⟨w, []⟩ =
      (((chain.authenticate c).run w).1, ⟨((chain.authenticate c).run w).2, asked outcomes⟩) ∧
    (∀ before a after, chain = before ++ after → a.supports c = false →
      authenticate (before ++ a :: after) c = chain.authenticate c) ∧
    ∀ (s : Surroundings (StateM σ)) (ts : List TokenAuthenticator),
      (∀ e, ((authenticate (ts.map (TokenAuthenticator.toAuthenticator s)) c).run w).1 ≠ .error e) ∧
      ∀ data principal,
        ((authenticate (ts.map (TokenAuthenticator.toAuthenticator s)) (.bearer data)).run w).1 =
            .ok (.accepted principal) ↔
          ((verifications s data ts).run w).1.findSome? Except.toOption = some principal := by
  refine ⟨run_authenticateOr c chain 0 unsupported w,
    run_authenticateOr_watched c chain 0 unsupported ⟨w, []⟩, ?_, fun s ts => ⟨?_, ?_⟩⟩
  · rintro before a after rfl hsupports
    exact authenticateOr_append_cons hsupports unsupported before after
  · intro e
    cases hbearer : c.bearer? with
    | none =>
        rw [authenticate, authenticateOr_of_no_bearer hbearer]
        exact nofun
    | some data =>
        obtain ⟨data', rfl⟩ : ∃ data', c = .bearer data' := by
          cases c with
          | bearer data' => exact ⟨data', rfl⟩
          | password username word => cases hbearer
          | bare => cases hbearer
        obtain ⟨cause, hrun⟩ := run_authenticate_bearer (s := s) data' ts w
        rw [hrun]
        cases ((verifications s data' ts).run w).1.findSome? Except.toOption with
        | some principal => exact nofun
        | none => exact nofun
  · intro data principal
    obtain ⟨cause, hrun⟩ := run_authenticate_bearer (s := s) data ts w
    rw [hrun]
    cases ((verifications s data ts).run w).1.findSome? Except.toOption with
    | some subject => simp
    | none => simp

/-- One that understands nothing, one that rejects, one that accepts and one that fails: two of
them are asked, and one more that understands nothing changes nothing. -/
theorem authenticate_first_decisive_third :
    ∃ (mute strict kind broken : Authenticator (StateM Unit)) (answer : Outcome),
      mute.supports .bare = false ∧ answer = .ok (.accepted "a") ∧
      ((authenticate [mute, strict, kind, broken] .bare).run ()).1 = answer ∧
      (((watched 0 [mute, strict, kind, broken]).authenticate .bare).run ⟨(), []⟩).2.asked =
        [(1, .ok (.rejected "b")), (2, answer)] ∧
      authenticate [mute, strict, mute, kind, broken] .bare =
        authenticate [mute, strict, kind, broken] .bare := by
  let mute : Authenticator (StateM Unit) :=
    ⟨fun _ => false, fun _ => pure (.error TokenAuthenticator.needsToken)⟩
  let others : Outcome → Authenticator (StateM Unit) := fun o => ⟨fun _ => true, fun _ => pure o⟩
  obtain ⟨hanswer, hwatched, hinserted, -⟩ := authenticate_first_decisive
    [mute, others (.ok (.rejected "b")), others (.ok (.accepted "a")),
      others (.error TokenAuthenticator.needsToken)] .bare ()
  refine ⟨mute, _, _, _, .ok (.accepted "a"), rfl, rfl, hanswer, ?_,
    hinserted [mute, others (.ok (.rejected "b"))] mute _ rfl rfl⟩
  rw [hwatched]
  rfl

end Chain

end TokenAuthority
