import GridProof.Lib.Checked

/-!
# Scripts of statements without a transaction

A script sends statements to a store, one after the other.  A statement is carried out as a whole or fails;
where one fails the script throws, and what the statements before it wrote stays.

* `Session`   the store, and for each statement to come whether it fails for a reason of its own;
* `execute`   one statement;
* `Triple`    from a store in `P` the script ends in `Q`, or throws in `R`; the rules for `pure`, for one
              script after another, for a choice and for a statement.
-/

universe u

structure Session (σ ε : Type*) where
  state : σ
  /-- the fault of the next statement, of the one behind it, and so on; none behind the end of the list -/
  faults : List (Option ε)

def Script (σ ε α : Type*) := Session σ ε → Except ε α × Session σ ε

namespace Script

variable {σ ε : Type*} {α β : Type u}

instance : Monad (Script σ ε) where
  pure a := fun s => (.ok a, s)
  bind x f := fun s =>
    match x s with
    | (.ok a, t) => f a t
    | (.error e, t) => (.error e, t)

/-- one statement: the store it leaves and its answer, or its error -/
def execute (statement : σ → Except ε (σ × α)) : Script σ ε α := fun s =>
  match s.faults.head?.join with
  | some e => (.error e, ⟨s.state, s.faults.tail⟩)
  | none =>
    match statement s.state with
    | .error e => (.error e, ⟨s.state, s.faults.tail⟩)
    | .ok (state, a) => (.ok a, ⟨state, s.faults.tail⟩)

/-! ## pre- and postconditions -/

/-- from a store in `P` the script ends with an answer in `Q`, or throws in `R` -/
def Triple (P : σ → Prop) (x : Script σ ε α) (Q : α → σ → Prop) (R : ε → σ → Prop) : Prop :=
  ∀ s, P s.state → (∀ a t, x s = (.ok a, t) → Q a t.state) ∧ ∀ e t, x s = (.error e, t) → R e t.state

variable {P P' : σ → Prop} {Q : α → σ → Prop} {Q' : β → σ → Prop} {R R' : ε → σ → Prop}

theorem Triple.mono {x : Script σ ε α} {Q₁ : α → σ → Prop} (h : Triple P x Q R) (hP : ∀ s, P' s → P s)
    (hQ : ∀ a s, Q a s → Q₁ a s) (hR : ∀ e s, R e s → R' e s) : Triple P' x Q₁ R' := by
  intro s hs
  obtain ⟨hok, herror⟩ := h s (hP _ hs)
  exact ⟨fun a t ht => hQ a _ (hok a t ht), fun e t ht => hR e _ (herror e t ht)⟩

/-- the store before may be fixed -/
theorem Triple.of_state {x : Script σ ε α} (h : ∀ s, P s → Triple (fun t => t = s) x Q R) : Triple P x Q R :=
  fun s hs => h s.state hs s rfl

theorem Triple.pure {a : α} (h : ∀ s, P s → Q a s) : Triple P (pure a : Script σ ε α) Q R := by
  intro s hs
  constructor
  · intro b t ht
    cases ht
    exact h _ hs
  · intro e t ht
    cases ht

theorem Triple.bind {x : Script σ ε α} {f : α → Script σ ε β} (hx : Triple P x Q R)
    (hf : ∀ a, Triple (Q a) (f a) Q' R) : Triple P (x >>= f) Q' R := by
  intro s hs
  obtain ⟨hok, herror⟩ := hx s hs
  have hbind : (x >>= f) s = match x s with
      | (.ok a, t) => f a t
      | (.error e, t) => (.error e, t) := rfl
  rw [hbind]
  match hxs : x s with
  | (.ok a, t) => exact hf a t (hok a t hxs)
  | (.error e, t) =>
    constructor
    · intro b u hu
      cases hu
    · intro e' u hu
      cases hu
      exact herror e t hxs

theorem Triple.ite {c : Prop} [Decidable c] {x y : Script σ ε α} (hx : c → Triple P x Q R)
    (hy : ¬ c → Triple P y Q R) : Triple P (if c then x else y) Q R := by
  by_cases hc : c
  · rw [if_pos hc]
    exact hx hc
  · rw [if_neg hc]
    exact hy hc

/-- a statement that fails leaves the store as it was -/
theorem Triple.execute {statement : σ → Except ε (σ × α)}
    (hok : ∀ s t a, P s → statement s = .ok (t, a) → Q a t) (herror : ∀ s e, P s → R e s) :
    Triple P (execute statement) Q R := by
  intro s hs
  unfold Script.execute
  cases s.faults.head?.join with
  | some e =>
    constructor
    · intro a t ht
      cases ht
    · intro e' t ht
      cases ht
      exact herror _ _ hs
  | none =>
    dsimp only
    match hst : statement s.state with
    | .error e =>
      constructor
      · intro a t ht
        cases ht
      · intro e' t ht
        cases ht
        exact herror _ _ hs
    | .ok (state, a) =>
      constructor
      · intro b t ht
        cases ht
        exact hok _ _ _ hs hst
      · intro e t ht
        cases ht

/-! ## what holds before and after -/

/-- every statement of the script keeps `P` -/
def Keeps (P : σ → Prop) (x : Script σ ε α) : Prop := Triple P x (fun _ => P) fun _ => P

theorem Keeps.pure {a : α} : Keeps P (pure a : Script σ ε α) := Triple.pure fun _ hs => hs

theorem Keeps.bind {x : Script σ ε α} {f : α → Script σ ε β} (hx : Keeps P x) (hf : ∀ a, Keeps P (f a)) :
    Keeps P (x >>= f) :=
  Triple.bind hx hf

end Script
