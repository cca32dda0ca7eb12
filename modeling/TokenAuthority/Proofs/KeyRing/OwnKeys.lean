import TokenAuthority.KeyFile.Store
import TokenAuthority.Proofs.KeyRing.Run

/-!
# Rings hold keys for their algorithm

A fresh key is one for the algorithm of its ring, a given key is refused if it is not, and
the stores load no other. So every key of a ring is one for the algorithm of the ring,
whatever became of the ring since it was made.
-/

namespace TokenAuthority

variable {σ α β : Type}

/-- In every world the answer is as described. -/
def Answers (x : StateM σ α) (P : α → Prop) : Prop :=
  ∀ w, P (x.run w).1

theorem Answers.pure {P : α → Prop} {a : α} (h : P a) :
    Answers (Pure.pure a : StateM σ α) P := by
  intro w
  exact h

theorem Answers.bind {P : α → Prop} {Q : β → Prop} {x : StateM σ α} {f : α → StateM σ β}
    (hx : Answers x P) (hf : ∀ a, P a → Answers (f a) Q) : Answers (x >>= f) Q := by
  intro w
  exact hf (x.run w).1 (hx w) (x.run w).2

theorem Answers.trivial (x : StateM σ α) : Answers x fun _ => True := by
  intro w
  exact True.intro

namespace KeyStore

/-- What is loaded, if anything is, is a key for an algorithm. -/
def Own (a : Algorithm) (answer : Except AuthError (Option SigningKey)) : Prop :=
  ∀ k, answer = .ok (some k) → k.algorithm = a

theorem own_error (a : Algorithm) (e : AuthError) : Own a (.error e) := by
  intro k h
  cases h

theorem own_none (a : Algorithm) : Own a (.ok none) := by
  intro k h
  cases h

theorem own_some {a : Algorithm} {k : SigningKey} (hk : k.algorithm = a) :
    Own a (.ok (some k)) := by
  intro k' h
  cases h
  exact hk

/-- Every key that is loaded is one for the algorithm that was asked for. -/
def LoadsOwn (store : KeyStore (StateM σ)) : Prop :=
  ∀ a, Answers (store.load a) (Own a)

theorem loadsOwn_inMemory : LoadsOwn (inMemory : KeyStore (StateM σ)) := by
  intro a
  exact .pure (own_none a)

end KeyStore

namespace KeyFile

open KeyStore

variable (s : Surroundings (StateM σ)) (fs : FileSystem (StateM σ)) (f : KeyFile)

theorem answers_keyOf (a : Algorithm) (c : Contents) :
    Answers (keyOf s a c) fun answer => ∀ k, answer = .ok k → k.algorithm = a := by
  rw [keyOf]
  refine (Answers.trivial s.now).bind fun now _ => ?_
  have hparts : ∀ id k, (SigningKey.ofParts id a (c.created.getD now) c.material).mapError
      (fun e => corrupt (.unsuited e)) = .ok k → k.algorithm = a := by
    intro id k h
    exact (SigningKey.parts_of_ofParts (mapError_eq_ok_iff.mp h)).2.1
  cases c.keyId with
  | some id => exact .pure (hparts id)
  | none => exact (Answers.trivial _).bind fun random _ => .pure (hparts _)

/-- The key of a file is never loaded for another algorithm. -/
theorem loadsOwn_store : (f.store s fs).LoadsOwn := by
  intro a
  change Answers (f.load s fs a) _
  rw [load]
  refine (Answers.trivial (fs.isPresent f.path)).bind fun found _ => ?_
  cases found with
  | false => exact .pure (own_none a)
  | true =>
      refine (Answers.trivial (fs.readText f.path)).bind fun text _ => ?_
      obtain e | text := text
      · exact .pure (own_error a _)
      dsimp only
      obtain why | c? := contents a text
      · exact .pure (own_error a _)
      cases c? with
      | none => exact .pure (own_none a)
      | some c =>
          refine (answers_keyOf s a c).bind fun answer hanswer => ?_
          obtain e | k := answer
          · exact .pure (own_error a e)
          have hk := own_some (hanswer k rfl)
          dsimp only
          by_cases hid : c.keyId.isSome
          · rw [if_pos hid]
            exact .pure hk
          · rw [if_neg hid]
            refine (Answers.trivial (f.activate fs k)).bind fun kept _ => ?_
            cases kept with
            | ok _ => exact .pure hk
            | error e => exact .pure (own_error a e)

end KeyFile

namespace KeyRing

variable (s : Surroundings (StateM σ)) (store : KeyStore (StateM σ))

/-- A ring that was made without keys or with one, and then went through any operations, in
whatever world each of them found itself. -/
inductive Reached : KeyRing → Prop
  | empty {a : Algorithm} {capacity : Nat} {r : KeyRing} (h : empty a capacity = .ok r) :
    Reached r
  | seeded {a : Algorithm} {capacity : Nat} {r : KeyRing} {w w' : σ}
    (h : (seeded s store a capacity).run w = (.ok r, w')) : Reached r
  | step {r : KeyRing} (h : Reached r) (op : Operation) (w : σ) :
    Reached ((r.perform s store op).run w).1.2

variable {s store} {r r' : KeyRing} {w w' : σ}

/-- Every key of a ring is one for its algorithm. -/
def Homogeneous (r : KeyRing) : Prop :=
  ∀ k ∈ r.keys, k.algorithm = r.algorithm

theorem Homogeneous.install (h : Homogeneous r) {k : SigningKey}
    (hk : k.algorithm = r.algorithm) : Homogeneous (r.install k) :=
  forall_mem_install h hk

theorem Homogeneous.step (h : Homogeneous r) {op : Operation} {answer : Except AuthError Answer}
    (hstep : Step s store r w op answer r' w') : Homogeneous r' := by
  cases hstep with
  | kept offer _ => exact h.install offer.algorithm_eq
  | cleared _ =>
      intro k hmem
      cases hmem
  | _ => exact h

theorem homogeneous_of_empty {a : Algorithm} {capacity : Nat} (h : empty a capacity = .ok r) :
    Homogeneous r := by
  intro k hmem
  rw [(of_empty_eq_ok h).2.2] at hmem
  cases hmem

theorem homogeneous_of_seeding (hstore : store.LoadsOwn) {a : Algorithm} {capacity : Nat}
    (h : Seeding s store a capacity w (.ok r) w') : Homogeneous r := by
  cases h with
  | loaded blank found =>
      refine (homogeneous_of_empty blank).install ?_
      rw [(of_empty_eq_ok blank).1]
      refine hstore a w _ ?_
      rw [found]
  | rotated blank _ step => exact (homogeneous_of_empty blank).step step

/-- Over a store that loads no other keys, every ring that can be reached holds keys for its
algorithm only. -/
theorem Reached.homogeneous (hstore : store.LoadsOwn) (h : Reached s store r) :
    Homogeneous r := by
  induction h with
  | empty h => exact homogeneous_of_empty h
  | @seeded a capacity r w w' h =>
      have hseeding := seeding_seeded s store a capacity w
      rw [h] at hseeding
      exact homogeneous_of_seeding hstore hseeding
  | step _ op w ih => exact ih.step (step_perform s store _ op w)

end KeyRing

end TokenAuthority
