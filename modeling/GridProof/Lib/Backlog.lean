import Mathlib.Data.List.Nodup
import Mathlib.Logic.Function.Iterate

/-!
# A backlog that is walked from its front

A pass looks at the first entries of a list, at most `limit` of them, and takes out those that are done.  An entry
that is stuck stays and the pass goes on; at one that is broken it ends.  What an entry is does not change.

* `pass`           what a pass leaves;
* `Blocked`        the entries before one keep every pass from it: a broken one, or as many stuck ones as a pass
                   looks at;
* `pass_blocked`, `pass_free`   a pass over the entries before one;
* `passes_iff`     after as many passes as there are entries, a done entry is taken out iff it is not blocked.
-/

namespace Backlog

inductive Answer where
  | done
  | stuck
  | broken
deriving DecidableEq

variable {α : Type*} (answer : α → Answer)

def pass : ℕ → List α → List α
  | 0, l => l
  | _ + 1, [] => []
  | k + 1, a :: l =>
    match answer a with
    | .done => pass k l
    | .stuck => a :: pass k l
    | .broken => a :: l

theorem pass_zero (l : List α) : pass answer 0 l = l := by
  cases l with
  | _ => rfl

theorem pass_nil (k : ℕ) : pass answer k [] = [] := by
  cases k with
  | _ => rfl

variable {answer}

theorem pass_done {a : α} (h : answer a = .done) (k : ℕ) (l : List α) :
    pass answer (k + 1) (a :: l) = pass answer k l := by
  simp only [pass, h]

theorem pass_stuck {a : α} (h : answer a = .stuck) (k : ℕ) (l : List α) :
    pass answer (k + 1) (a :: l) = a :: pass answer k l := by
  simp only [pass, h]

theorem pass_broken {a : α} (h : answer a = .broken) (k : ℕ) (l : List α) :
    pass answer (k + 1) (a :: l) = a :: l := by
  simp only [pass, h]

/-- a pass leaves some of the entries, in their order -/
theorem pass_sublist (k : ℕ) (l : List α) : (pass answer k l).Sublist l := by
  induction l generalizing k with
  | nil => rw [pass_nil]
  | cons a l ih =>
    cases k with
    | zero => rw [pass_zero]
    | succ k =>
      cases h : answer a with
      | done =>
        rw [pass_done h]
        exact (ih k).cons a
      | stuck =>
        rw [pass_stuck h]
        exact (ih k).cons_cons a
      | broken => rw [pass_broken h]

/-! ## the entries before one -/

variable (answer)

/-- those that no pass takes out -/
def remaining (before : List α) : List α := before.filter fun b => answer b ≠ .done

def Blocked (limit : ℕ) (before : List α) : Prop :=
  (∃ b ∈ before, answer b = .broken) ∨ limit ≤ before.countP fun b => answer b = .stuck

variable {answer}

theorem blocked_remaining {limit : ℕ} {before : List α} :
    Blocked answer limit (remaining answer before) ↔ Blocked answer limit before := by
  unfold Blocked remaining
  rw [List.countP_filter]
  refine or_congr ⟨fun ⟨b, hb, h⟩ => ⟨b, (List.mem_filter.mp hb).1, h⟩, fun ⟨b, hb, h⟩ => ?_⟩ ?_
  · refine ⟨b, List.mem_filter.mpr ⟨hb, decide_eq_true ?_⟩, h⟩
    rw [h]
    exact nofun
  · have hcount : (fun b => decide (answer b = .stuck) && decide (answer b ≠ .done)) =
        fun b => decide (answer b = .stuck) := by
      funext b
      cases answer b with
      | _ => rfl
    rw [hcount]

theorem remaining_cons_done {b : α} (h : answer b = .done) (before : List α) :
    remaining answer (b :: before) = remaining answer before := by
  simp only [remaining, List.filter_cons, h, ne_eq, not_true_eq_false, decide_false, Bool.false_eq_true, if_false]

theorem remaining_cons_of_ne {b : α} (h : answer b ≠ .done) (before : List α) :
    remaining answer (b :: before) = b :: remaining answer before := by
  simp only [remaining, List.filter_cons, h, ne_eq, not_false_eq_true, decide_true, if_true]

theorem not_blocked_iff {limit : ℕ} {before : List α} : ¬ Blocked answer limit before ↔
    (∀ b ∈ before, answer b ≠ .broken) ∧ (before.countP fun b => answer b = .stuck) < limit := by
  unfold Blocked
  rw [not_or, not_exists, Nat.not_le]
  exact and_congr_left fun _ => forall_congr' fun b => not_and

theorem countP_cons_stuck {b : α} (h : answer b = .stuck) (before : List α) :
    ((b :: before).countP fun b => answer b = .stuck) = (before.countP fun b => answer b = .stuck) + 1 :=
  List.countP_cons_of_pos (decide_eq_true h)

theorem countP_cons_done {b : α} (h : answer b = .done) (before : List α) :
    ((b :: before).countP fun b => answer b = .stuck) = before.countP fun b => answer b = .stuck :=
  List.countP_cons_of_neg fun hstuck => by
    rw [h] at hstuck
    exact absurd hstuck (by decide)

/-- a block that is not at its first entry is behind it -/
theorem Blocked.tail {k : ℕ} {b : α} {before : List α} (h : Blocked answer (k + 1) (b :: before))
    (hb : answer b ≠ .broken) : Blocked answer k before := by
  rcases h with ⟨b', hb', hbroken⟩ | hcount
  · rcases List.mem_cons.mp hb' with rfl | hb'
    · exact absurd hbroken hb
    · exact .inl ⟨b', hb', hbroken⟩
  · cases hanswer : answer b with
    | done =>
      rw [countP_cons_done hanswer] at hcount
      exact .inr (by omega)
    | stuck =>
      rw [countP_cons_stuck hanswer] at hcount
      exact .inr (by omega)
    | broken => exact absurd hanswer hb

/-! ## one pass -/

/-- an entry behind a block stays, and so does the block -/
theorem pass_blocked {k : ℕ} {before : List α} (a : α) (after : List α) (h : Blocked answer k before) :
    ∃ before' after', pass answer k (before ++ a :: after) = before' ++ a :: after' ∧
      remaining answer before' = remaining answer before ∧ before'.Sublist before ∧ after'.Sublist after := by
  induction before generalizing k with
  | nil =>
    rcases h with ⟨b, hb, -⟩ | h
    · exact absurd hb List.not_mem_nil
    · obtain rfl := Nat.le_zero.mp h
      exact ⟨[], after, pass_zero answer _, rfl, .slnil, .refl after⟩
  | cons b before ih =>
    cases k with
    | zero => exact ⟨b :: before, after, pass_zero answer _, rfl, .refl _, .refl after⟩
    | succ k =>
      cases hb : answer b with
      | done =>
        obtain ⟨before', after', hpass, hremaining, hbefore, hafter⟩ := ih (h.tail (by rw [hb]; exact nofun))
        refine ⟨before', after', (pass_done hb k _).trans hpass, ?_, hbefore.cons b, hafter⟩
        rw [hremaining, remaining_cons_done hb]
      | stuck =>
        obtain ⟨before', after', hpass, hremaining, hbefore, hafter⟩ := ih (h.tail (by rw [hb]; exact nofun))
        refine ⟨b :: before', after', ?_, ?_, hbefore.cons_cons b, hafter⟩
        · rw [List.cons_append, pass_stuck hb, hpass, List.cons_append]
        · have hne : answer b ≠ .done := by
            rw [hb]
            exact nofun
          rw [remaining_cons_of_ne hne, remaining_cons_of_ne hne, hremaining]
      | broken => exact ⟨b :: before, after, pass_broken hb k _, rfl, .refl _, .refl after⟩

/-- without a block a pass takes out the entry, or one before it -/
theorem pass_free {k : ℕ} {before : List α} {a : α} (after : List α) (ha : answer a = .done)
    (h : ¬ Blocked answer k before) : ∃ before' after', before'.Sublist before ∧ after'.Sublist after ∧
      (pass answer k (before ++ a :: after) = before' ++ after' ∨
        pass answer k (before ++ a :: after) = before' ++ a :: after' ∧
          remaining answer before' = remaining answer before ∧ before'.length < before.length) := by
  induction before generalizing k with
  | nil =>
    obtain ⟨-, hcount⟩ := not_blocked_iff.mp h
    obtain ⟨k, rfl⟩ := Nat.exists_eq_succ_of_ne_zero (Nat.ne_of_gt hcount)
    exact ⟨[], pass answer k after, .slnil, pass_sublist k after, .inl (pass_done ha k after)⟩
  | cons b before ih =>
    obtain ⟨hbroken, hcount⟩ := not_blocked_iff.mp h
    obtain ⟨hb, hbefore⟩ := List.forall_mem_cons.mp hbroken
    obtain ⟨k, rfl⟩ := Nat.exists_eq_succ_of_ne_zero (Nat.ne_of_gt (Nat.zero_lt_of_lt hcount))
    cases hanswer : answer b with
    | done =>
      rw [List.cons_append, pass_done hanswer, remaining_cons_done hanswer]
      by_cases hrest : Blocked answer k before
      · obtain ⟨before', after', hpass, hremaining, hb', hafter'⟩ := pass_blocked a after hrest
        exact ⟨before', after', hb'.cons b, hafter', .inr ⟨hpass, hremaining, Nat.lt_succ_of_le hb'.length_le⟩⟩
      · obtain ⟨before', after', hb', hafter', hpass⟩ := ih hrest
        refine ⟨before', after', hb'.cons b, hafter', hpass.imp_right fun ⟨hpass, hremaining, hlength⟩ => ?_⟩
        exact ⟨hpass, hremaining, Nat.lt_succ_of_lt hlength⟩
    | stuck =>
      rw [countP_cons_stuck hanswer] at hcount
      have hrest : ¬ Blocked answer k before := not_blocked_iff.mpr ⟨hbefore, by omega⟩
      have hne : answer b ≠ .done := by
        rw [hanswer]
        exact nofun
      obtain ⟨before', after', hb', hafter', hpass⟩ := ih hrest
      rw [List.cons_append, pass_stuck hanswer]
      refine ⟨b :: before', after', hb'.cons_cons b, hafter', ?_⟩
      rcases hpass with hpass | ⟨hpass, hremaining, hlength⟩
      · exact .inl (by rw [hpass, List.cons_append])
      · refine .inr ⟨by rw [hpass, List.cons_append], ?_, Nat.succ_lt_succ hlength⟩
        rw [remaining_cons_of_ne hne, remaining_cons_of_ne hne, hremaining]
    | broken => exact absurd hanswer hb

/-! ## passes -/

theorem passes_sublist (limit n : ℕ) (l : List α) : ((pass answer limit)^[n] l).Sublist l := by
  induction n generalizing l with
  | zero => exact .refl l
  | succ n ih =>
    rw [Function.iterate_succ_apply]
    exact (ih _).trans (pass_sublist limit l)

theorem passes_blocked {limit : ℕ} (n : ℕ) {before : List α} (a : α) (after : List α)
    (h : Blocked answer limit before) : a ∈ (pass answer limit)^[n] (before ++ a :: after) := by
  induction n generalizing before after with
  | zero => exact List.mem_append_right _ List.mem_cons_self
  | succ n ih =>
    obtain ⟨before', after', hpass, hremaining, -⟩ := pass_blocked a after h
    rw [Function.iterate_succ_apply, hpass]
    apply ih
    rw [← blocked_remaining, hremaining, blocked_remaining]
    exact h

theorem passes_free {limit n : ℕ} {before after : List α} {a : α} (ha : answer a = .done)
    (h : ¬ Blocked answer limit before) (hn : before.length < n) (hbefore : a ∉ before) (hafter : a ∉ after) :
    a ∉ (pass answer limit)^[n] (before ++ a :: after) := by
  induction n generalizing before after with
  | zero => omega
  | succ n ih =>
    obtain ⟨before', after', hb', hafter', hpass⟩ := pass_free after ha h
    have hleft : a ∉ before' := fun hmem => hbefore (hb'.subset hmem)
    have hright : a ∉ after' := fun hmem => hafter (hafter'.subset hmem)
    rw [Function.iterate_succ_apply]
    rcases hpass with hpass | ⟨hpass, hremaining, hlength⟩
    · rw [hpass]
      intro hmem
      rcases List.mem_append.mp ((passes_sublist limit n _).subset hmem) with hmem | hmem
      · exact hleft hmem
      · exact hright hmem
    · rw [hpass]
      refine ih ?_ (by omega) hleft hright
      rw [← blocked_remaining, hremaining, blocked_remaining]
      exact h

/-- **After as many passes as there are entries, a done entry is taken out iff the entries before it do not block
it.** -/
theorem passes_iff {limit n : ℕ} {before after : List α} {a : α} (hnodup : (before ++ a :: after).Nodup)
    (hn : (before ++ a :: after).length ≤ n) (ha : answer a = .done) :
    a ∉ (pass answer limit)^[n] (before ++ a :: after) ↔ ¬ Blocked answer limit before := by
  refine ⟨fun hout hblocked => hout (passes_blocked n a after hblocked), fun hfree => ?_⟩
  rw [List.length_append, List.length_cons] at hn
  obtain ⟨-, hafter, hdisjoint⟩ := List.nodup_append.mp hnodup
  refine passes_free ha hfree (by omega) (fun hmem => ?_) (List.nodup_cons.mp hafter).1
  exact hdisjoint a hmem a List.mem_cons_self rfl

end Backlog
