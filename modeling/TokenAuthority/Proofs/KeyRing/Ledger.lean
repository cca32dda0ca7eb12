import TokenAuthority.Proofs.KeyRing.Run

/-!
# The ledger of a store

A store is watched by writing down each of its calls that succeeds. What the store keeps
is read off the ledger and not asked of the store itself, so nothing is assumed about how
it works. Watching changes nothing: with the ledgers left out, the runs are the same.
-/

namespace TokenAuthority

/-- What a store did, in a call that succeeded. -/
inductive StoreEvent where
  | loaded (k? : Option SigningKey)
  | activated (k : SigningKey)
  | discarded

/-- What a store did, the latest first. -/
abbrev Ledger := List StoreEvent

namespace Ledger

/-- The key that is kept: the one that was loaded, until another one is activated or it is
discarded. -/
def persisted : Ledger → Option SigningKey
  | [] => none
  | .loaded k? :: _ => k?
  | .activated k :: _ => some k
  | .discarded :: _ => none

/-- The keys that were activated, the latest first. -/
def activated : Ledger → List SigningKey
  | [] => []
  | .activated k :: earlier => k :: activated earlier
  | _ :: earlier => activated earlier

/-- The entries for an answer: one if it is no error. -/
def entries {α : Type} (event : α → StoreEvent) : Except AuthError α → Ledger
  | .ok a => [event a]
  | .error _ => []

end Ledger

/-- A world, and the ledger of the store in it. -/
structure Recorded (σ : Type) where
  world : σ
  ledger : Ledger

namespace Recorded

variable {σ α β : Type}

/-- What is done in the world, with entries for the answer. -/
def act (entries : α → Ledger) (x : StateM σ α) : StateM (Recorded σ) α := do
  let w ← get
  let (a, world) := x.run w.world
  set (Recorded.mk world (entries a ++ w.ledger))
  return a

theorem run_act (entries : α → Ledger) (x : StateM σ α) (w : Recorded σ) :
    (act entries x).run w =
      ((x.run w.world).1, ⟨(x.run w.world).2, entries (x.run w.world).1 ++ w.ledger⟩) := rfl

theorem ledger_of_run_act {entries : α → Ledger} {x : StateM σ α} {w w₁ : Recorded σ} {a : α}
    (h : (act entries x).run w = (a, w₁)) : w₁.ledger = entries a ++ w.ledger := by
  rw [run_act, Prod.mk.injEq] at h
  rw [← h.2, ← h.1]

/-- The second is the first without its ledger. -/
def Erases (x : StateM (Recorded σ) α) (y : StateM σ α) : Prop :=
  ∀ w, ((x.run w).1, (x.run w).2.world) = y.run w.world

theorem Erases.act (entries : α → Ledger) (x : StateM σ α) : Erases (act entries x) x := by
  intro w
  rfl

theorem Erases.pure (a : α) : Erases (pure a : StateM (Recorded σ) α) (pure a) := by
  intro w
  rfl

theorem Erases.bind {x : StateM (Recorded σ) α} {y : StateM σ α}
    {f : α → StateM (Recorded σ) β} {g : α → StateM σ β} (hx : Erases x y)
    (hf : ∀ a, Erases (f a) (g a)) : Erases (x >>= f) (y >>= g) := by
  intro w
  rw [StateT.run_bind, StateT.run_bind, ← hx w]
  exact hf (x.run w).1 (x.run w).2

end Recorded

open Recorded

/-- The same surroundings, beside a ledger. -/
def Surroundings.recorded {σ : Type} (s : Surroundings (StateM σ)) :
    Surroundings (StateM (Recorded σ)) :=
  s.lift (act fun _ => [])

/-- The same store, with a ledger of what it does. -/
def KeyStore.recorded {σ : Type} (store : KeyStore (StateM σ)) :
    KeyStore (StateM (Recorded σ)) where
  kind := store.kind
  file? := store.file?
  load a := act (Ledger.entries .loaded) (store.load a)
  activate k := act (Ledger.entries fun _ => .activated k) (store.activate k)
  discard := act (Ledger.entries fun _ => .discarded) store.discard

namespace KeyStore

variable {σ : Type} {store : KeyStore (StateM σ)} {w w₁ : Recorded σ}

theorem ledger_load {a : Algorithm} {answer : Except AuthError (Option SigningKey)}
    (h : (store.recorded.load a).run w = (answer, w₁)) :
    w₁.ledger = Ledger.entries .loaded answer ++ w.ledger :=
  ledger_of_run_act h

theorem answer_load {a : Algorithm} {answer : Except AuthError (Option SigningKey)}
    (h : (store.recorded.load a).run w = (answer, w₁)) :
    ((store.load a).run w.world).1 = answer :=
  congrArg Prod.fst h

theorem ledger_activate {k : SigningKey} {answer : Except AuthError Unit}
    (h : (store.recorded.activate k).run w = (answer, w₁)) :
    w₁.ledger = Ledger.entries (fun _ => .activated k) answer ++ w.ledger :=
  ledger_of_run_act h

theorem ledger_discard {answer : Except AuthError Unit}
    (h : store.recorded.discard.run w = (answer, w₁)) :
    w₁.ledger = Ledger.entries (fun _ => .discarded) answer ++ w.ledger :=
  ledger_of_run_act h

end KeyStore

namespace KeyRing

variable {σ : Type} {s : Surroundings (StateM σ)} {store : KeyStore (StateM σ)}

/-! ### What operations write down -/

section

variable {r : KeyRing} {w w₁ : Recorded σ}

theorem ledger_freshKey {a : Algorithm} {answer : Except AuthError SigningKey}
    (h : (freshKey s.recorded a).run w = (answer, w₁)) : w₁.ledger = w.ledger := by
  rw [run_freshKey, Prod.mk.injEq] at h
  rw [← h.2]
  rfl

/-- Nothing is written down before a key is offered. -/
theorem Offers.ledger_eq {op : Operation} {k : SigningKey}
    (h : Offers s.recorded r w op k w₁) : w₁.ledger = w.ledger := by
  cases h with
  | given _ => rfl
  | fresh made => exact ledger_freshKey made
  | first _ made => exact ledger_freshKey made

end

/-! ### Watching changes nothing -/

variable (s store)

theorem erases_freshKey (a : Algorithm) : Erases (freshKey s.recorded a) (freshKey s a) := by
  have hnow : Erases s.recorded.now s.now := .act _ _
  have hdraw : Erases (s.recorded.draw SigningKey.randomSize) (s.draw SigningKey.randomSize) :=
    .act _ _
  rw [freshKey, freshKey]
  exact hnow.bind fun now => hdraw.bind fun random => .pure _

theorem erases_adopt (r : KeyRing) (k : SigningKey) :
    Erases (r.adopt store.recorded k) (r.adopt store k) := by
  refine (Erases.act _ (store.activate k)).bind ?_
  intro answer
  cases answer with
  | ok _ => exact .pure _
  | error e => exact .pure _

theorem erases_rotate (r : KeyRing) :
    Erases (r.rotate s.recorded store.recorded) (r.rotate s store) := by
  refine (erases_freshKey s r.algorithm).bind ?_
  intro answer
  cases answer with
  | ok k => exact erases_adopt store r k
  | error e => exact .pure _

theorem erases_current (r : KeyRing) :
    Erases (r.current s.recorded store.recorded) (r.current s store) := by
  rw [current, current]
  cases r.keys with
  | nil => exact erases_rotate s store r
  | cons k older => exact .pure _

theorem erases_push (r : KeyRing) (k : SigningKey) :
    Erases (r.push store.recorded k) (r.push store k) := by
  rw [push, push]
  by_cases hk : k.algorithm = r.algorithm
  · rw [if_pos hk, if_pos hk]
    exact erases_adopt store r k
  · rw [if_neg hk, if_neg hk]
    exact .pure _

theorem erases_clear (r : KeyRing) : Erases (r.clear store.recorded) (r.clear store) := by
  refine (Erases.act _ store.discard).bind ?_
  intro answer
  cases answer with
  | ok _ => exact .pure _
  | error e => exact .pure _

theorem erases_perform (r : KeyRing) (op : Operation) :
    Erases (r.perform s.recorded store.recorded op) (r.perform s store op) := by
  cases op with
  | find id => exact .pure _
  | size => exact .pure _
  | rotate => exact (erases_rotate s store r).bind fun _ => .pure _
  | current => exact (erases_current s store r).bind fun _ => .pure _
  | push k => exact (erases_push store r k).bind fun _ => .pure _
  | clear => exact (erases_clear store r).bind fun _ => .pure _

theorem erases_seeded (a : Algorithm) (capacity : Nat) :
    Erases (seeded s.recorded store.recorded a capacity) (seeded s store a capacity) := by
  rw [seeded, seeded]
  cases empty a capacity with
  | error e => exact .pure _
  | ok r =>
      refine (Erases.act _ (store.load a)).bind ?_
      intro answer
      obtain e | _ | k := answer
      · exact .pure _
      · refine (erases_rotate s store r).bind ?_
        rintro ⟨e | k, r'⟩
        · exact .pure _
        · exact .pure _
      · exact .pure _

/-- With the ledger left out, a watched run is the run itself. -/
theorem erases_after (ops : List Operation) (r : KeyRing) :
    Erases (after s.recorded store.recorded ops r) (after s store ops r) := by
  induction ops generalizing r with
  | nil => exact .pure _
  | cons op ops ih =>
      refine (erases_perform s store r op).bind ?_
      intro next
      exact ih next.2

end KeyRing

end TokenAuthority
