import Mathlib.Logic.Basic

/-!
# Programs whose power may fail

A program reads and changes a state.  Where the power fails it ends at once, and the state stays as it is then.

* `read`, `command`    what a program is made of; power may be lost before a command;
* `Ends x s Q R`       from `s` the program ends in `Q`, or loses power in `R`;
* `ends_pure`, `ends_bind`, `ends_read`, `ends_command`, `ends_ite`   one equivalence for each way to make a
                       program, so that a proof goes through a program from its first command on.
-/

namespace Outage

variable {σ α β : Type}

/-- the value, `none` if the power was lost, and the state -/
def Program (σ α : Type) := σ → Option α × σ

instance : Monad (Program σ) where
  pure a := fun s => (some a, s)
  bind x f := fun s =>
    match x s with
    | (some a, t) => f a t
    | (none, t) => (none, t)

def read (f : σ → α) : Program σ α := fun s => (some (f s), s)

/-- if `lost`, the power is lost before it -/
def command (lost : Bool) (f : σ → α × σ) : Program σ α := fun s =>
  if lost then (none, s) else (some (f s).1, (f s).2)

/-- from `s` the program ends with a value and a state in `Q`, or loses power in `R` -/
def Ends (x : Program σ α) (s : σ) (Q : α → σ → Prop) (R : σ → Prop) : Prop :=
  match x s with
  | (some a, t) => Q a t
  | (none, t) => R t

variable {s : σ} {Q Q' : α → σ → Prop} {R R' : σ → Prop}

theorem ends_pure {a : α} : Ends (pure a) s Q R ↔ Q a s := Iff.rfl

theorem ends_bind {x : Program σ α} {f : α → Program σ β} {Q : β → σ → Prop} :
    Ends (x >>= f) s Q R ↔ Ends x s (fun a t => Ends (f a) t Q R) R := by
  have hbind : (x >>= f) s = match x s with
      | (some a, t) => f a t
      | (none, t) => (none, t) := rfl
  unfold Ends
  rw [hbind]
  cases x s with
  | mk a t =>
    cases a with
    | none => exact Iff.rfl
    | some a => exact Iff.rfl

theorem ends_read {f : σ → α} : Ends (read f) s Q R ↔ Q (f s) s := Iff.rfl

theorem ends_command {lost : Bool} {f : σ → α × σ} :
    Ends (command lost f) s Q R ↔ if lost then R s else Q (f s).1 (f s).2 := by
  unfold Ends command
  cases lost with
  | _ => exact Iff.rfl

theorem ends_ite {c : Prop} [Decidable c] {x y : Program σ α} :
    Ends (if c then x else y) s Q R ↔ if c then Ends x s Q R else Ends y s Q R := by
  by_cases h : c
  · rw [if_pos h, if_pos h]
  · rw [if_neg h, if_neg h]

theorem Ends.mono {x : Program σ α} (h : Ends x s Q R) (hQ : ∀ a t, Q a t → Q' a t) (hR : ∀ t, R t → R' t) :
    Ends x s Q' R' := by
  unfold Ends at *
  cases hx : x s with
  | mk a t =>
    rw [hx] at h
    cases a with
    | none => exact hR t h
    | some a => exact hQ a t h

/-- what a command does, where it may lose power -/
theorem Ends.command {lost : Bool} {f : σ → α × σ} (hR : lost = true → R s)
    (hQ : lost = false → Q (f s).1 (f s).2) : Ends (command lost f) s Q R := by
  rw [ends_command]
  cases lost with
  | true => exact hR rfl
  | false => exact hQ rfl

end Outage
