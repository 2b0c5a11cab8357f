import Mathlib.Algebra.Order.Group.Int
import Mathlib.Data.Int.LeastGreatest
import Mathlib.Data.Set.Basic
import Mathlib.Order.Bounds.Defs

/-!
# Silences of a set of times

Something is heard of at the times `T`.  A silence is a stretch longer than `g` that starts at one of them and
ends at the next one, or at `now` if there is no later one.

* `IsSilence.eq_stop`    a silence is determined by its start;
* `IsSilence.disjoint`   two silences do not overlap;
* `isSilence_ageing`     forgetting what is older than a bound leaves the silences that start at the bound or later;
* `isSilence_prefix`     a cut keeps the silences that start before the last time it keeps;
* `isSilence_cut_iff`    when a cut keeps all of them, and adds none.
-/

structure IsSilence (g now : ℤ) (T : Set ℤ) (s e : ℤ) : Prop where
  start : s ∈ T
  long : g < e - s
  stop : (e ∈ T ∧ ∀ t ∈ T, t ≤ s ∨ e ≤ t) ∨ (e = now ∧ ∀ t ∈ T, t ≤ s)

namespace IsSilence

variable {g now s e s' e' : ℤ} {T T' : Set ℤ}

/-- nothing is heard of inside -/
theorem clear (h : IsSilence g now T s e) : ∀ t ∈ T, t ≤ s ∨ e ≤ t := by
  rcases h.stop with ⟨-, hclear⟩ | ⟨-, hlast⟩
  · exact hclear
  · exact fun t ht => .inl (hlast t ht)

theorem lt (hg : 0 ≤ g) (h : IsSilence g now T s e) : s < e := by
  have hlong := h.long
  omega

/-- the end is the next time, or now -/
theorem eq_stop (hg : 0 ≤ g) (h : IsSilence g now T s e) (h' : IsSilence g now T s e') : e = e' := by
  have hlt := h.lt hg
  have hlt' := h'.lt hg
  rcases h.stop with ⟨he, hclear⟩ | ⟨he, hlast⟩
  · rcases h'.stop with ⟨he', hclear'⟩ | ⟨-, hlast'⟩
    · have h1 := hclear e' he'
      have h2 := hclear' e he
      omega
    · have h1 := hlast' e he
      omega
  · rcases h'.stop with ⟨he', -⟩ | ⟨he', -⟩
    · have h1 := hlast e' he'
      omega
    · omega

theorem disjoint (h : IsSilence g now T s e) (hs' : s' ∈ T) (hlt : s < s') : e ≤ s' :=
  (h.clear s' hs').resolve_left (not_le.mpr hlt)

theorem congr (h : IsSilence g now T s e) (hT : T = T') : IsSilence g now T' s e := hT ▸ h

end IsSilence

section
variable {g now s e : ℤ} {T : Set ℤ}

/-- what is older than the bound does not matter for a silence that starts at the bound or later -/
theorem isSilence_ageing (hg : 0 ≤ g) (bound : ℤ) :
    IsSilence g now {t | t ∈ T ∧ bound ≤ t} s e ↔ IsSilence g now T s e ∧ bound ≤ s := by
  constructor
  · intro h
    obtain ⟨hs, hbound⟩ := h.start
    have hlt := h.lt hg
    refine ⟨⟨hs, h.long, ?_⟩, hbound⟩
    rcases h.stop with ⟨he, hclear⟩ | ⟨he, hlast⟩
    · refine .inl ⟨he.1, fun t ht => ?_⟩
      by_cases hold : bound ≤ t
      · exact hclear t ⟨ht, hold⟩
      · omega
    · refine .inr ⟨he, fun t ht => ?_⟩
      by_cases hold : bound ≤ t
      · exact hlast t ⟨ht, hold⟩
      · omega
  · rintro ⟨h, hbound⟩
    have hlt := h.lt hg
    refine ⟨⟨h.start, hbound⟩, h.long, ?_⟩
    rcases h.stop with ⟨he, hclear⟩ | ⟨he, hlast⟩
    · exact .inl ⟨⟨he, by omega⟩, fun t ht => hclear t ht.1⟩
    · exact .inr ⟨he, fun t ht => hlast t ht.1⟩

/-- what comes later than a kept time does not matter for a silence that starts before it -/
theorem isSilence_prefix {K C : Set ℤ} {b : ℤ} (hb : IsGreatest K b) (hC : ∀ t ∈ C, b ≤ t) (hs : s < b) :
    IsSilence g now (K ∪ C) s e ↔ IsSilence g now K s e := by
  constructor
  · intro h
    have hsK : s ∈ K := h.start.resolve_right fun hsC => absurd (hC s hsC) (not_le.mpr hs)
    have hle : e ≤ b := h.disjoint (.inl hb.1) hs
    refine ⟨hsK, h.long, .inl ⟨?_, fun t ht => h.clear t (.inl ht)⟩⟩
    rcases h.stop with ⟨he | he, -⟩ | ⟨-, hlast⟩
    · exact he
    · have hbe := hC e he
      rw [le_antisymm hle hbe]
      exact hb.1
    · exact absurd (hlast b (.inl hb.1)) (not_le.mpr hs)
  · intro h
    have hle : e ≤ b := h.disjoint hb.1 hs
    refine ⟨.inl h.start, h.long, .inl ⟨.inl ?_, fun t ht => ?_⟩⟩
    · rcases h.stop with ⟨he, -⟩ | ⟨-, hlast⟩
      · exact he
      · exact absurd (hlast b hb.1) (not_le.mpr hs)
    · rcases ht with ht | ht
      · exact h.clear t ht
      · exact .inr (hle.trans (hC t ht))

/-- another time follows within the threshold, or now does -/
def Followed (g now : ℤ) (T : Set ℤ) (s : ℤ) : Prop :=
  (∃ t ∈ T, s < t ∧ t ≤ s + g) ∨ (now ≤ s + g ∧ ∀ t ∈ T, t ≤ s)

theorem exists_isSilence_iff (hg : 0 ≤ g) : (∃ e, IsSilence g now T s e) ↔ s ∈ T ∧ ¬ Followed g now T s := by
  constructor
  · rintro ⟨e, h⟩
    have hlong := h.long
    refine ⟨h.start, ?_⟩
    rintro (⟨t, ht, hst, hle⟩ | ⟨hnow, hlast⟩)
    · have := h.clear t ht
      omega
    · rcases h.stop with ⟨he, -⟩ | ⟨he, -⟩
      · have := hlast e he
        omega
      · omega
  · rintro ⟨hs, hno⟩
    obtain ⟨hnear, hlast⟩ := not_or.mp hno
    by_cases hlater : ∃ t, t ∈ T ∧ s < t
    · obtain ⟨e, ⟨he, hse⟩, hleast⟩ := Int.exists_least_of_bdd ⟨s, fun t ht => ht.2.le⟩ hlater
      have hlong : g < e - s := by
        by_contra hshort
        exact hnear ⟨e, he, hse, by omega⟩
      refine ⟨e, hs, hlong, .inl ⟨he, fun t ht => ?_⟩⟩
      by_cases hst : s < t
      · exact .inr (hleast t ⟨ht, hst⟩)
      · exact .inl (le_of_not_gt hst)
    · have hle : ∀ t ∈ T, t ≤ s := fun t ht => le_of_not_gt fun hst => hlater ⟨t, ht, hst⟩
      have hlong : g < now - s := by
        by_contra hshort
        exact hlast ⟨by omega, hle⟩
      exact ⟨now, hs, hlong, .inr ⟨rfl, hle⟩⟩

/-! ## cuts -/

/-- what is cut off leaves no silence behind: each of its times is followed, and so is the last time that is
kept, unless that one is silent up to now either way -/
def Bridged (g now : ℤ) (K C : Set ℤ) : Prop :=
  (∀ c ∈ C, (∀ k ∈ K, k < c) → Followed g now (K ∪ C) c) ∧
  ∀ b, IsGreatest K b → (now ≤ b + g ∧ Followed g now (K ∪ C) b) ∨
    (b + g < now ∧ (∀ c ∈ C, c ≤ b ∨ now ≤ c) ∧ ((∃ c ∈ C, b < c) → now ∈ C))

/-- a silence of the kept times that starts at the last one goes on up to now -/
theorem isSilence_last (hg : 0 ≤ g) {K : Set ℤ} {b : ℤ} (hb : IsGreatest K b) :
    IsSilence g now K b e ↔ e = now ∧ b + g < now := by
  constructor
  · intro h
    have hlong := h.long
    rcases h.stop with ⟨he, -⟩ | ⟨he, -⟩
    · have := hb.2 he
      omega
    · exact ⟨he, by omega⟩
  · rintro ⟨rfl, hlong⟩
    exact ⟨hb.1, by omega, .inr ⟨rfl, fun t ht => hb.2 ht⟩⟩

/-- **A cut keeps all silences, and adds none, iff it is bridged.** -/
theorem isSilence_cut_iff (hg : 0 ≤ g) {K C : Set ℤ} (hcut : ∀ k ∈ K, ∀ c ∈ C, k ≤ c) :
    (∀ s e, IsSilence g now (K ∪ C) s e ↔ IsSilence g now K s e) ↔ Bridged g now K C := by
  constructor
  · intro h
    constructor
    · intro c hc hlater
      by_contra hno
      obtain ⟨e, he⟩ := (exists_isSilence_iff hg).mpr ⟨.inr hc, hno⟩
      exact lt_irrefl c (hlater c ((h c e).mp he).start)
    · intro b hb
      by_cases hlong : b + g < now
      · have hsilence := (h b now).mpr ((isSilence_last hg hb).mpr ⟨rfl, hlong⟩)
        refine .inr ⟨hlong, fun c hc => hsilence.clear c (.inr hc), ?_⟩
        rintro ⟨c, hc, hbc⟩
        rcases hsilence.stop with ⟨hnow | hnow, -⟩ | ⟨-, hlast⟩
        · have := hb.2 hnow
          omega
        · exact hnow
        · exact absurd (hlast c (.inr hc)) (not_le.mpr hbc)
      · refine .inl ⟨by omega, ?_⟩
        by_contra hno
        obtain ⟨e, he⟩ := (exists_isSilence_iff hg).mpr ⟨.inl hb.1, hno⟩
        exact hlong ((isSilence_last hg hb).mp ((h b e).mp he)).2
  · rintro ⟨hcuts, hlast⟩ s e
    rcases C.eq_empty_or_nonempty with rfl | ⟨c, hc⟩
    · rw [Set.union_empty]
    have hafter : (∀ k ∈ K, k < s) → (IsSilence g now (K ∪ C) s e ↔ IsSilence g now K s e) := by
      intro hs
      refine iff_of_false (fun h => ?_) fun h => lt_irrefl s (hs s h.start)
      have hsC : s ∈ C := h.start.resolve_left fun hsK => lt_irrefl s (hs s hsK)
      exact ((exists_isSilence_iff hg).mp ⟨e, h⟩).2 (hcuts s hsC hs)
    by_cases hK : ∃ k, k ∈ K
    · obtain ⟨b, hbK, hbgreatest⟩ := Int.exists_greatest_of_bdd ⟨c, fun k hk => hcut k hk c hc⟩ hK
      have hb : IsGreatest K b := ⟨hbK, hbgreatest⟩
      rcases lt_trichotomy s b with hsb | rfl | hbs
      · exact isSilence_prefix hb (hcut b hbK) hsb
      · rw [isSilence_last hg hb]
        rcases hlast s hb with ⟨hshort, hfollowed⟩ | ⟨hlong, hclear, hnow⟩
        · refine iff_of_false (fun h => ?_) fun h => by omega
          exact ((exists_isSilence_iff hg).mp ⟨e, h⟩).2 hfollowed
        · have hsilence : IsSilence g now (K ∪ C) s now := by
            refine ⟨.inl hbK, by omega, ?_⟩
            by_cases hlater : ∃ c ∈ C, s < c
            · exact .inl ⟨.inr (hnow hlater), fun t ht => ht.elim (fun hk => .inl (hb.2 hk)) (hclear t)⟩
            · refine .inr ⟨rfl, fun t ht => ht.elim (fun hk => hb.2 hk) fun htC => ?_⟩
              exact le_of_not_gt fun hst => hlater ⟨t, htC, hst⟩
          constructor
          · exact fun h => ⟨h.eq_stop hg hsilence, hlong⟩
          · rintro ⟨rfl, -⟩
            exact hsilence
      · exact hafter fun k hk => (hbgreatest k hk).trans_lt hbs
    · exact hafter fun k hk => absurd ⟨k, hk⟩ hK

end
