import Mathlib.Data.Set.Insert
import Mathlib.Logic.Function.Basic
import Mathlib.Logic.Relation

/-!
# Sending until it is acknowledged

A sender sends a message as often as it likes over a network that may lose, delay and repeat it.  The receiver keeps
one value under each key, the first that comes, and acknowledges a message whose key is taken.

* `Protocol.Step`        what may happen;
* `Link.Sound`           what is kept under a key of the sender was sent, and what was acknowledged is kept;
* `Protocol.Reaches.sound`   every state that is reached is sound;
* `Protocol.Reaches.keeps`   a value that is kept is kept forever, so a message counts once however often it arrives.
-/

namespace Acknowledged

variable {μ κ ν : Type*}

structure Link (μ κ ν : Type*) where
  sent : Set μ
  store : κ → Option ν
  acked : Set μ

def Link.start : Link μ κ ν := ⟨∅, fun _ => none, ∅⟩

/-- the key of a message, and the values that the receiver may make of it -/
structure Protocol (μ κ ν : Type*) where
  key : μ → κ
  Makes : μ → ν → Prop

/-- the keys of the sender -/
def Protocol.own (P : Protocol μ κ ν) : Set κ := Set.range P.key

inductive Protocol.Step [DecidableEq κ] (P : Protocol μ κ ν) (l : Link μ κ ν) : Link μ κ ν → Prop
  | send (m : μ) : Step P l { l with sent := insert m l.sent }
  /-- the first message of its key arrives -/
  | keep (m : μ) (v : ν) (hsent : m ∈ l.sent) (hfree : l.store (P.key m) = none) (hmakes : P.Makes m v) :
      Step P l { l with store := Function.update l.store (P.key m) (some v) }
  /-- somebody else's message -/
  | other (k : κ) (v : ν) (hk : k ∉ P.own) (hfree : l.store k = none) :
      Step P l { l with store := Function.update l.store k (some v) }
  | ack (m : μ) (hsent : m ∈ l.sent) (hkept : l.store (P.key m) ≠ none) : Step P l { l with acked := insert m l.acked }

structure Link.Sound (P : Protocol μ κ ν) (l : Link μ κ ν) : Prop where
  origin : ∀ k ∈ P.own, ∀ v, l.store k = some v → ∃ m ∈ l.sent, P.key m = k ∧ P.Makes m v
  acked : ∀ m ∈ l.acked, m ∈ l.sent ∧ ∃ v, l.store (P.key m) = some v

variable {P : Protocol μ κ ν} {l l' : Link μ κ ν}

theorem Link.Sound.start : (Link.start : Link μ κ ν).Sound P :=
  ⟨fun _ _ _ h => absurd h nofun, fun _ h => absurd h (Set.notMem_empty _)⟩

section
variable [DecidableEq κ]

/-- what is kept is never replaced -/
theorem Protocol.Step.keeps (h : P.Step l l') {k : κ} {v : ν} (hk : l.store k = some v) : l'.store k = some v := by
  have hupdate {k₀ : κ} {v₀ : ν} (hfree : l.store k₀ = none) : Function.update l.store k₀ (some v₀) k = some v := by
    rw [Function.update_of_ne, hk]
    rintro rfl
    rw [hfree] at hk
    cases hk
  cases h with
  | send m => exact hk
  | keep m v₀ hsent hfree hmakes => exact hupdate hfree
  | other k₀ v₀ hno hfree => exact hupdate hfree
  | ack m hsent hkept => exact hk

theorem Protocol.Step.grows (h : P.Step l l') : l.sent ⊆ l'.sent ∧ l.acked ⊆ l'.acked := by
  cases h with
  | send m => exact ⟨Set.subset_insert m l.sent, subset_rfl⟩
  | keep m v hsent hfree hmakes => exact ⟨subset_rfl, subset_rfl⟩
  | other k v hno hfree => exact ⟨subset_rfl, subset_rfl⟩
  | ack m hsent hkept => exact ⟨subset_rfl, Set.subset_insert m l.acked⟩

theorem Link.Sound.step (hl : l.Sound P) (h : P.Step l l') : l'.Sound P := by
  have hgrows := h.grows
  have hold (k : κ) (hk : k ∈ P.own) (v : ν) (hv : l.store k = some v) : ∃ m ∈ l'.sent, P.key m = k ∧ P.Makes m v := by
    obtain ⟨m, hm, hmk⟩ := hl.origin k hk v hv
    exact ⟨m, hgrows.1 hm, hmk⟩
  have hkept (m : μ) (hm : m ∈ l.acked) : m ∈ l'.sent ∧ ∃ v, l'.store (P.key m) = some v := by
    obtain ⟨hsent, v, hv⟩ := hl.acked m hm
    exact ⟨hgrows.1 hsent, v, h.keeps hv⟩
  cases h with
  | send m => exact ⟨hold, hkept⟩
  | keep m₀ v₀ hsent hfree hmakes =>
    refine ⟨fun k hk v hv => ?_, hkept⟩
    have hv : Function.update l.store (P.key m₀) (some v₀) k = some v := hv
    by_cases he : k = P.key m₀
    · rw [he, Function.update_self] at hv
      rw [← Option.some.inj hv]
      exact ⟨m₀, hsent, he.symm, hmakes⟩
    · rw [Function.update_of_ne he] at hv
      exact hold k hk v hv
  | other k₀ v₀ hno hfree =>
    refine ⟨fun k hk v hv => ?_, hkept⟩
    have hv : Function.update l.store k₀ (some v₀) k = some v := hv
    rw [Function.update_of_ne] at hv
    · exact hold k hk v hv
    · rintro rfl
      exact hno hk
  | ack m₀ hsent hstored =>
    refine ⟨hold, fun m hm => ?_⟩
    rcases Set.mem_insert_iff.mp hm with rfl | hm
    · exact ⟨hsent, Option.ne_none_iff_exists'.mp hstored⟩
    · exact hkept m hm

/-! ## runs -/

def Protocol.Reaches (P : Protocol μ κ ν) : Link μ κ ν → Link μ κ ν → Prop := Relation.ReflTransGen P.Step

theorem Protocol.Reaches.refl : P.Reaches l l := Relation.ReflTransGen.refl

theorem Protocol.Reaches.one (h : P.Step l l') : P.Reaches l l' := Relation.ReflTransGen.single h

theorem Protocol.Reaches.trans {l'' : Link μ κ ν} (h : P.Reaches l l') (h' : P.Reaches l' l'') : P.Reaches l l'' :=
  Relation.ReflTransGen.trans h h'

/-- **Every state that is reached is sound.** -/
theorem Protocol.Reaches.sound (h : P.Reaches l l') (hl : l.Sound P) : l'.Sound P := by
  induction h with
  | refl => exact hl
  | tail _ hstep ih => exact ih.step hstep

/-- **A value that is kept is kept forever.** -/
theorem Protocol.Reaches.keeps (h : P.Reaches l l') {k : κ} {v : ν} (hk : l.store k = some v) :
    l'.store k = some v := by
  induction h with
  | refl => exact hk
  | tail _ hstep ih => exact hstep.keeps ih

theorem Protocol.Reaches.grows (h : P.Reaches l l') : l.sent ⊆ l'.sent ∧ l.acked ⊆ l'.acked := by
  induction h with
  | refl => exact ⟨subset_rfl, subset_rfl⟩
  | tail _ hstep ih => exact ⟨ih.1.trans hstep.grows.1, ih.2.trans hstep.grows.2⟩

end

end Acknowledged
