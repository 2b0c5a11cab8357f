import Mathlib.Data.List.Dedup
import GridProof.Lib.Silence
import GridProof.Lib.Timeline
import GridProof.Detection.Heartbeat

/-!
# What the gap detection finds

The loop over the beats of a zone finds the silences of their times, each one once.

* `beatTimes`, `silentNodes`   the times of the zone's beats, and who was heard of in the threshold before one;
* `gapConfidence_eq`   the confidence of a silence in whole steps;
* `mem_gapsFrom`     the loop looks at each place of the timeline;
* `isGap_of_mem`, `exists_gap`, `heartbeatGaps_sorted`   for any threshold, it finds the silences, in their order;
* `IsGapCandidateIn`   a candidate that is what the detection makes of a silence;
* `isGapCandidate_of_mem`, `exists_isGapCandidate`   the candidates are those of the silences;
* `starts_sorted`    each silence has one candidate.
-/

namespace Detection
open Ingestion (EvidenceEvent)
open Pipeline (IsoDate CandidateEvent exactly)

/-! ## the beats of a zone -/

def isBeat (zoneId : String) (event : EvidenceEvent) : Bool := event.zoneId = zoneId && event.source = .sensor

theorem isBeat_iff {zoneId : String} {event : EvidenceEvent} :
    isBeat zoneId event = true ↔ event.zoneId = zoneId ∧ event.source = .sensor := by
  unfold isBeat
  rw [Bool.and_eq_true, decide_eq_true_eq, decide_eq_true_eq]

/-- when the zone was heard of -/
def beatTimes (zoneId : String) (evidence : List EvidenceEvent) : Set ℤ :=
  {t | ∃ e ∈ evidence, isBeat zoneId e = true ∧ e.observedAt.getTime = t}

theorem IsoDate.getTime_ofMillis (ms : Int) : (IsoDate.ofMillis ms).getTime = ms :=
  Int.mul_ediv_cancel ms (by decide)

theorem heartbeatGapMs_pos : 0 < heartbeatGapMs := by decide

theorem floor_heartbeatGapMs : ⌊(heartbeatGapMs : ℚ)⌋ = heartbeatGapMs := Int.floor_intCast _

theorem heartbeatGapMs_nonneg : (0 : ℚ) ≤ heartbeatGapMs := by exact_mod_cast heartbeatGapMs_pos.le

/-! ## confidence -/

/-- in steps of a ten thousandth: one for each 360 ms over the threshold, 600 for each further node -/
theorem gapConfidence_eq {nodes : ℕ} {lengthMs : ℤ} (hlong : heartbeatGapMs < lengthMs) (hnodes : 1 ≤ nodes) :
    gapConfidence lengthMs heartbeatGapMs nodes =
      ((min (6000 + (min (lengthMs - heartbeatGapMs) (2 * heartbeatGapMs) + 180) / 360 + 600 * ((nodes : ℤ) - 1))
        9500 : ℤ) : ℚ) / 10000 := by
  have hover : min (max ((lengthMs : ℚ) - heartbeatGapMs) 0 / (2 * heartbeatGapMs)) 1 =
      ((min (lengthMs - heartbeatGapMs) (2 * heartbeatGapMs) : ℤ) : ℚ) / 720000 := by
    have hpos : (0 : ℚ) ≤ lengthMs - heartbeatGapMs := by
      have hlt : (heartbeatGapMs : ℚ) < lengthMs := by exact_mod_cast hlong
      linarith
    rw [max_eq_left hpos, show (2 * heartbeatGapMs : ℤ) = 720000 by decide, Int.cast_min,
      ← min_div_div_right (by norm_num : (0 : ℚ) ≤ 720000), show heartbeatGapMs = 360000 by decide]
    norm_num
  have hle : min (lengthMs - heartbeatGapMs) (2 * heartbeatGapMs) ≤ 720000 := min_le_right _ _
  unfold gapConfidence gapConfidenceIn roundConfidenceIn exactly
  dsimp only
  rw [max_eq_left (by omega : 0 ≤ (nodes : ℤ) - 1), hover]
  generalize min (lengthMs - heartbeatGapMs) (2 * heartbeatGapMs) = x at hle
  -- one node alone stays below its ceiling
  have hceiling : (if nodes < 2 then
      min (minGapConfidence + gapLengthWeight * ((x : ℚ) / 720000) + corroborationBonus * (((nodes : ℤ) - 1 : ℤ) : ℚ))
        singleNodeCeiling
      else minGapConfidence + gapLengthWeight * ((x : ℚ) / 720000) +
        corroborationBonus * (((nodes : ℤ) - 1 : ℤ) : ℚ)) =
      minGapConfidence + gapLengthWeight * ((x : ℚ) / 720000) + corroborationBonus * (((nodes : ℤ) - 1 : ℤ) : ℚ) := by
    split
    · obtain rfl : nodes = 1 := by omega
      refine min_eq_left ?_
      unfold minGapConfidence gapLengthWeight corroborationBonus singleNodeCeiling
      have hx : (x : ℚ) ≤ 720000 := by exact_mod_cast hle
      push_cast
      linarith
    · rfl
  rw [hceiling]
  have hvalue : min (minGapConfidence + gapLengthWeight * ((x : ℚ) / 720000) +
      corroborationBonus * (((nodes : ℤ) - 1 : ℤ) : ℚ)) maxGapConfidence * 10000 + 1 / 2 =
      min (((x + 180 : ℤ) : ℚ) / (360 : ℕ) + ((6000 + 600 * ((nodes : ℤ) - 1) : ℤ) : ℚ)) (9500 + 1 / 2) := by
    rw [min_mul_of_nonneg _ _ (by norm_num : (0 : ℚ) ≤ 10000), ← min_add_add_right]
    unfold minGapConfidence gapLengthWeight corroborationBonus maxGapConfidence
    congr 1
    · push_cast
      ring
    · norm_num
  have hfloor : ⌊(9500 + 1 / 2 : ℚ)⌋ = 9500 := by norm_num [Int.floor_eq_iff]
  rw [hvalue, Int.floor_mono.map_min, Int.floor_add_intCast, Rat.floor_intCast_div_natCast, hfloor]
  congr 3
  omega

section
variable [JsText.Runtime]

/-- the nodes of the zone that were heard of in the threshold before `startedAt` -/
def silentNodes (zoneId : String) (evidence : List EvidenceEvent) (startedAt : ℤ) : ℕ :=
  ((evidence.filter fun e => isBeat zoneId e && startedAt - heartbeatGapMs ≤ e.observedAt.getTime &&
    e.observedAt.getTime ≤ startedAt).map evidenceSourceIdentity).dedup.length

theorem beatOrder_timeFirst : TimeFirst beatOrder fun e : EvidenceEvent => e.observedAt.getTime where
  of_lt _ _ h := .inl h
  le _ _ h := h.elim le_of_lt fun e => e.1.le

theorem mem_heartbeatsFor {zoneId : String} {evidence : List EvidenceEvent} {e : EvidenceEvent} :
    e ∈ heartbeatsFor zoneId evidence ↔ e ∈ evidence ∧ isBeat zoneId e = true := by
  unfold heartbeatsFor
  rw [List.mem_insertionSort, List.mem_filter]
  rfl

theorem heartbeatsFor_sorted (zoneId : String) (evidence : List EvidenceEvent) :
    (heartbeatsFor zoneId evidence).Pairwise fun x y => x.observedAt.getTime ≤ y.observedAt.getTime :=
  beatOrder_timeFirst.sorted _

theorem mem_beatTimes {zoneId : String} {evidence : List EvidenceEvent} {t : ℤ} :
    t ∈ beatTimes zoneId evidence ↔ ∃ e ∈ heartbeatsFor zoneId evidence, e.observedAt.getTime = t := by
  simp only [mem_heartbeatsFor, and_assoc]
  rfl

/-! ## the loop -/

/-- the gap at a place of the timeline, if there is one; `heard` are the beats up to it, the latest one first -/
def gapAt (now : Int) (gapMs : ℚ) (heard : List EvidenceEvent) (startBeat : EvidenceEvent)
    (after : List EvidenceEvent) : Option Gap :=
  let endsAt := (after.head?.map fun beat => beat.observedAt.getTime).getD now
  if ((endsAt - startBeat.observedAt.getTime : ℤ) : ℚ) > gapMs then
    some ⟨startBeat, after.head?, (nodesReportingBefore startBeat.observedAt.getTime heard gapMs).length⟩
  else none

theorem gapsFrom_nil (now : Int) (gapMs : ℚ) (heard : List EvidenceEvent) (previous : EvidenceEvent) :
    gapsFrom now gapMs heard previous [] = (gapAt now gapMs heard previous []).toList := by
  unfold gapsFrom gapAt
  dsimp only [List.head?_nil, Option.map_none, Option.getD_none]
  split
  · rfl
  · rfl

theorem gapsFrom_cons (now : Int) (gapMs : ℚ) (heard : List EvidenceEvent) (previous next : EvidenceEvent)
    (rest : List EvidenceEvent) : gapsFrom now gapMs heard previous (next :: rest) =
      (gapAt now gapMs heard previous (next :: rest)).toList ++
        gapsFrom now gapMs (next :: heard) next rest := by
  rw [gapsFrom]
  unfold gapAt
  dsimp only [List.head?_cons, Option.map_some, Option.getD_some]
  split
  · rename_i hnear
    rw [if_neg (not_lt.mpr hnear)]
    rfl
  · rename_i hfar
    rw [if_pos (not_le.mp hfar)]
    rfl

/-- the loop looks at each place -/
theorem mem_gapsFrom {now : Int} {gapMs : ℚ} {older rest : List EvidenceEvent} {previous : EvidenceEvent} {gap : Gap} :
    gap ∈ gapsFrom now gapMs (previous :: older) previous rest ↔
      ∃ before startBeat after, previous :: rest = before ++ startBeat :: after ∧
        gapAt now gapMs (startBeat :: (before.reverse ++ older)) startBeat after = some gap := by
  induction rest generalizing previous older with
  | nil =>
    rw [gapsFrom_nil, Option.mem_toList]
    constructor
    · exact fun h => ⟨[], previous, [], rfl, h⟩
    · rintro ⟨before, startBeat, after, he, h⟩
      cases before with
      | nil =>
        obtain ⟨rfl, rfl⟩ := List.cons.inj he
        exact h
      | cons b before =>
        exact absurd (List.cons.inj he).2.symm
          (List.append_ne_nil_of_right_ne_nil before (List.cons_ne_nil startBeat after))
  | cons next rest ih =>
    rw [gapsFrom_cons, List.mem_append, Option.mem_toList, ih]
    constructor
    · rintro (h | ⟨before, startBeat, after, he, h⟩)
      · exact ⟨[], previous, next :: rest, rfl, h⟩
      · refine ⟨previous :: before, startBeat, after, by rw [he, List.cons_append], ?_⟩
        rw [List.reverse_cons, List.append_assoc]
        exact h
    · rintro ⟨before, startBeat, after, he, h⟩
      cases before with
      | nil =>
        obtain ⟨rfl, rfl⟩ := List.cons.inj he
        exact .inl h
      | cons b before =>
        obtain ⟨rfl, hrest⟩ := List.cons.inj he
        refine .inr ⟨before, startBeat, after, hrest, ?_⟩
        rw [List.reverse_cons, List.append_assoc] at h
        exact h

theorem mem_heartbeatGaps {zoneId : String} {evidence : List EvidenceEvent} {now : Int} {gapMs : ℚ} {gap : Gap} :
    gap ∈ heartbeatGaps zoneId evidence now gapMs ↔
      ∃ before startBeat after, heartbeatsFor zoneId evidence = before ++ startBeat :: after ∧
        gapAt now gapMs (startBeat :: before.reverse) startBeat after = some gap := by
  unfold heartbeatGaps
  cases hbeats : heartbeatsFor zoneId evidence with
  | nil =>
    refine iff_of_false List.not_mem_nil ?_
    rintro ⟨before, startBeat, after, he, -⟩
    exact List.append_ne_nil_of_right_ne_nil before (List.cons_ne_nil startBeat after) he.symm
  | cons first rest =>
    dsimp only
    rw [mem_gapsFrom]
    simp only [List.append_nil]

theorem gapAt_eq_some {now : Int} {gapMs : ℚ} {heard after : List EvidenceEvent} {startBeat : EvidenceEvent} {gap : Gap}
    (h : gapAt now gapMs heard startBeat after = some gap) :
    gap = ⟨startBeat, after.head?, (nodesReportingBefore startBeat.observedAt.getTime heard gapMs).length⟩ ∧
      ⌊gapMs⌋ < (after.head?.map fun beat => beat.observedAt.getTime).getD now - startBeat.observedAt.getTime := by
  unfold gapAt at h
  dsimp only at h
  split at h
  · rename_i hlong
    exact ⟨(Option.some.inj h).symm, Int.floor_lt.mpr hlong⟩
  · cases h

/-! ## who was heard of -/

omit [JsText.Runtime] in
/-- the loop backwards stops at the first beat that is too old, and so are those before it -/
theorem mem_takeWhile_heard {startedAt gapMs : Int} {heard : List EvidenceEvent}
    (hsorted : heard.Pairwise fun x y => y.observedAt.getTime ≤ x.observedAt.getTime) {e : EvidenceEvent} :
    e ∈ heard.takeWhile (fun beat => startedAt - beat.observedAt.getTime ≤ gapMs) ↔
      e ∈ heard ∧ startedAt - e.observedAt.getTime ≤ gapMs := by
  induction heard with
  | nil => exact iff_of_false List.not_mem_nil fun h => List.not_mem_nil h.1
  | cons b heard ih =>
    obtain ⟨hb, hrest⟩ := List.pairwise_cons.mp hsorted
    by_cases hnear : startedAt - b.observedAt.getTime ≤ gapMs
    · have hkeep : (b :: heard).takeWhile (fun beat => startedAt - beat.observedAt.getTime ≤ gapMs) =
          b :: heard.takeWhile fun beat => startedAt - beat.observedAt.getTime ≤ gapMs :=
        List.takeWhile_cons_of_pos (decide_eq_true hnear)
      rw [hkeep, List.mem_cons, List.mem_cons, ih hrest, or_and_right]
      refine or_congr_left (iff_self_and.mpr ?_)
      rintro rfl
      exact hnear
    · rw [List.takeWhile_cons_of_neg (by simpa using hnear)]
      refine iff_of_false List.not_mem_nil ?_
      rintro ⟨he, hold⟩
      rcases List.mem_cons.mp he with rfl | he
      · exact hnear hold
      · have hle := hb e he
        omega

/-- the nodes of the zone that were heard of in the threshold before `startedAt` -/
def heardNodes (zoneId : String) (evidence : List EvidenceEvent) (startedAt gapMs : ℤ) : List String :=
  ((evidence.filter fun e => isBeat zoneId e && startedAt - gapMs ≤ e.observedAt.getTime &&
    e.observedAt.getTime ≤ startedAt).map evidenceSourceIdentity).dedup

theorem silentNodes_eq (zoneId : String) (evidence : List EvidenceEvent) (startedAt : ℤ) :
    silentNodes zoneId evidence startedAt = (heardNodes zoneId evidence startedAt heartbeatGapMs).length := rfl

theorem nodesReportingBefore_perm {zoneId : String} {evidence before after : List EvidenceEvent}
    {startBeat : EvidenceEvent} (gapMs : ℚ)
    (hbeats : heartbeatsFor zoneId evidence = before ++ startBeat :: after)
    (hafter : ∀ e ∈ after, startBeat.observedAt.getTime < e.observedAt.getTime) :
    (nodesReportingBefore startBeat.observedAt.getTime (startBeat :: before.reverse) gapMs).Perm
      (heardNodes zoneId evidence startBeat.observedAt.getTime ⌊gapMs⌋) := by
  have hsorted := heartbeatsFor_sorted zoneId evidence
  rw [hbeats] at hsorted
  obtain ⟨hle, -⟩ := sorted_around hsorted
  have hheard : (startBeat :: before.reverse).Pairwise
      fun x y => y.observedAt.getTime ≤ x.observedAt.getTime := by
    refine List.pairwise_cons.mpr ⟨fun x hx => hle x (List.mem_reverse.mp hx), ?_⟩
    exact List.pairwise_reverse.mpr (List.pairwise_append.mp hsorted).1
  unfold nodesReportingBefore heardNodes
  simp only [← Int.le_floor]
  refine (List.perm_ext_iff_of_nodup (List.nodup_dedup _) (List.nodup_dedup _)).mpr fun x => ?_
  rw [List.mem_dedup, List.mem_dedup, List.mem_map, List.mem_map]
  refine exists_congr fun e => and_congr_left fun _ => ?_
  rw [mem_takeWhile_heard hheard, List.mem_filter, Bool.and_eq_true, Bool.and_eq_true, decide_eq_true_eq,
    decide_eq_true_eq, ← and_assoc, ← and_assoc, ← mem_heartbeatsFor, hbeats]
  constructor
  · rintro ⟨he, hnear⟩
    have hmem : e ∈ before ++ startBeat :: after := by
      rcases List.mem_cons.mp he with rfl | he
      · exact List.mem_append_right _ List.mem_cons_self
      · exact List.mem_append_left _ (List.mem_reverse.mp he)
    have hlast : e.observedAt.getTime ≤ startBeat.observedAt.getTime := by
      rcases List.mem_cons.mp he with rfl | he
      · exact le_refl _
      · exact hle e (List.mem_reverse.mp he)
    exact ⟨⟨hmem, by omega⟩, hlast⟩
  · rintro ⟨⟨he, hnear⟩, hlast⟩
    refine ⟨?_, by omega⟩
    rcases List.mem_append.mp he with he | he
    · exact List.mem_cons_of_mem _ (List.mem_reverse.mpr he)
    · rcases List.mem_cons.mp he with rfl | he
      · exact List.mem_cons_self
      · exact absurd hlast (not_le.mpr (hafter e he))

/-! ## gaps are silences -/

/-- which of the zone's beats of one time a silence starts at -/
def startBeatAt (zoneId : String) (evidence : List EvidenceEvent) (startedAt : ℤ) : Option EvidenceEvent :=
  ((evidence.filter fun e => isBeat zoneId e && e.observedAt.getTime = startedAt).insertionSort
    beatOrder).getLast?

theorem startBeatAt_eq {zoneId : String} {evidence : List EvidenceEvent} {startedAt : ℤ} :
    startBeatAt zoneId evidence startedAt =
      ((heartbeatsFor zoneId evidence).filter fun e => e.observedAt.getTime = startedAt).getLast? := by
  unfold startBeatAt heartbeatsFor
  rw [beatOrder_timeFirst.filter_sort, List.filter_filter]
  congr 3
  funext e
  exact Bool.and_comm _ _

/-- the time of the closing beat, or now -/
def Gap.endsAt (gap : Gap) (now : ℤ) : ℤ := (gap.closingBeat.map fun beat => beat.observedAt.getTime).getD now

section
variable {zoneId : String} {evidence : List EvidenceEvent} {now : ℤ} {gapMs : ℚ}

/-- a gap of the timeline, and what it was built from -/
structure IsGap (zoneId : String) (evidence : List EvidenceEvent) (now : ℤ) (gapMs : ℚ) (gap : Gap) : Prop where
  silence : IsSilence ⌊gapMs⌋ now (beatTimes zoneId evidence) gap.startBeat.observedAt.getTime (gap.endsAt now)
  beat : startBeatAt zoneId evidence gap.startBeat.observedAt.getTime = some gap.startBeat
  nodes : gap.silentNodes = (heardNodes zoneId evidence gap.startBeat.observedAt.getTime ⌊gapMs⌋).length

theorem isGap_of_mem (hpos : 0 ≤ gapMs) {gap : Gap} (h : gap ∈ heartbeatGaps zoneId evidence now gapMs) :
    IsGap zoneId evidence now gapMs gap := by
  obtain ⟨before, startBeat, after, hbeats, hgap⟩ := mem_heartbeatGaps.mp h
  obtain ⟨rfl, hlong⟩ := gapAt_eq_some hgap
  have hfloor : 0 ≤ ⌊gapMs⌋ := Int.floor_nonneg.mpr hpos
  have hsorted := heartbeatsFor_sorted zoneId evidence
  rw [hbeats] at hsorted
  obtain ⟨hbefore, -⟩ := sorted_around hsorted
  -- what is behind the start is later
  have hafter : ∀ e ∈ after, startBeat.observedAt.getTime < e.observedAt.getTime ∧
      (after.head?.map fun beat => beat.observedAt.getTime).getD now ≤ e.observedAt.getTime := by
    cases after with
    | nil => exact fun e he => absurd he List.not_mem_nil
    | cons next rest =>
      obtain ⟨-, hcons, -⟩ := List.pairwise_append.mp hsorted
      have hnext := List.pairwise_cons.mp (List.pairwise_cons.mp hcons).2
      dsimp only [List.head?_cons, Option.map_some, Option.getD_some] at hlong ⊢
      intro e he
      rcases List.mem_cons.mp he with rfl | he
      · exact ⟨by omega, le_refl _⟩
      · have hle := hnext.1 e he
        exact ⟨by omega, hle⟩
  have hmem : ∀ e, e ∈ heartbeatsFor zoneId evidence ↔ e ∈ before ++ startBeat :: after := fun e => by rw [hbeats]
  refine ⟨⟨?_, hlong, ?_⟩, ?_, (nodesReportingBefore_perm gapMs hbeats fun e he => (hafter e he).1).length_eq⟩
  · exact mem_beatTimes.mpr ⟨startBeat, (hmem _).mpr (List.mem_append_right _ List.mem_cons_self), rfl⟩
  · have hclear : ∀ t ∈ beatTimes zoneId evidence, t ≤ startBeat.observedAt.getTime ∨
        ∃ e ∈ after, e.observedAt.getTime = t := by
      intro t ht
      obtain ⟨e, he, rfl⟩ := mem_beatTimes.mp ht
      rcases List.mem_append.mp ((hmem e).mp he) with he | he
      · exact .inl (hbefore e he)
      · rcases List.mem_cons.mp he with rfl | he
        · exact .inl (le_refl _)
        · exact .inr ⟨e, he, rfl⟩
    cases after with
    | nil =>
      refine .inr ⟨rfl, fun t ht => (hclear t ht).resolve_right ?_⟩
      rintro ⟨e, he, -⟩
      cases he
    | cons next rest =>
      refine .inl ⟨mem_beatTimes.mpr ⟨next, (hmem _).mpr ?_, rfl⟩, fun t ht => (hclear t ht).imp_right ?_⟩
      · exact List.mem_append_right _ (List.mem_cons_of_mem _ List.mem_cons_self)
      · rintro ⟨e, he, rfl⟩
        exact (hafter e he).2
  · rw [startBeatAt_eq, hbeats]
    exact getLast?_at fun e he => (hafter e he).1

theorem exists_gap (hpos : 0 ≤ gapMs) {s e : ℤ} (h : IsSilence ⌊gapMs⌋ now (beatTimes zoneId evidence) s e) :
    ∃ gap ∈ heartbeatGaps zoneId evidence now gapMs,
      gap.startBeat.observedAt.getTime = s ∧ gap.endsAt now = e := by
  obtain ⟨before, startBeat, after, hbeats, rfl, hafter⟩ :=
    split_last (heartbeatsFor_sorted zoneId evidence) (mem_beatTimes.mp h.start)
  have hsorted := heartbeatsFor_sorted zoneId evidence
  rw [hbeats] at hsorted
  have hmem : ∀ e, e ∈ heartbeatsFor zoneId evidence ↔ e ∈ before ++ startBeat :: after := fun e => by rw [hbeats]
  have hlt := h.lt (Int.floor_nonneg.mpr hpos)
  have hend : (after.head?.map fun beat => beat.observedAt.getTime).getD now = e := by
    cases after with
    | nil =>
      rcases h.stop with ⟨he, -⟩ | ⟨he, -⟩
      · obtain ⟨b, hb, rfl⟩ := mem_beatTimes.mp he
        rcases List.mem_append.mp ((hmem b).mp hb) with hb | hb
        · exact absurd ((sorted_around hsorted).1 b hb) (not_le.mpr hlt)
        · rw [List.mem_singleton.mp hb] at hlt
          exact absurd hlt (lt_irrefl _)
      · exact he.symm
    | cons next rest =>
      have hnext : next.observedAt.getTime ∈ beatTimes zoneId evidence :=
        mem_beatTimes.mpr ⟨next, (hmem _).mpr (List.mem_append_right _ (List.mem_cons_of_mem _ List.mem_cons_self)),
          rfl⟩
      have hnextlt := hafter next List.mem_cons_self
      have hle : e ≤ next.observedAt.getTime := (h.clear _ hnext).resolve_left (not_le.mpr hnextlt)
      rcases h.stop with ⟨he, -⟩ | ⟨-, hlast⟩
      · obtain ⟨b, hb, rfl⟩ := mem_beatTimes.mp he
        rcases List.mem_append.mp ((hmem b).mp hb) with hb | hb
        · exact absurd ((sorted_around hsorted).1 b hb) (not_le.mpr hlt)
        · rcases List.mem_cons.mp hb with rfl | hb
          · exact absurd hlt (lt_irrefl _)
          · obtain ⟨-, hcons, -⟩ := List.pairwise_append.mp hsorted
            have hrest := List.pairwise_cons.mp (List.pairwise_cons.mp hcons).2
            rcases List.mem_cons.mp hb with rfl | hb
            · rfl
            · exact le_antisymm (hrest.1 b hb) hle
      · exact absurd (hlast _ hnext) (not_le.mpr hnextlt)
  refine ⟨⟨startBeat, after.head?, (nodesReportingBefore startBeat.observedAt.getTime
    (startBeat :: before.reverse) gapMs).length⟩, mem_heartbeatGaps.mpr ⟨before, startBeat, after, hbeats, ?_⟩,
    rfl, hend⟩
  unfold gapAt
  dsimp only
  rw [hend, if_pos (Int.floor_lt.mp h.long)]

theorem gapsFrom_sorted (hpos : 0 ≤ gapMs) {heard rest : List EvidenceEvent} {previous : EvidenceEvent}
    (hsorted : (previous :: rest).Pairwise fun x y => x.observedAt.getTime ≤ y.observedAt.getTime) :
    (∀ gap ∈ gapsFrom now gapMs heard previous rest,
        previous.observedAt.getTime ≤ gap.startBeat.observedAt.getTime) ∧
      (gapsFrom now gapMs heard previous rest).Pairwise
        fun x y => x.startBeat.observedAt.getTime < y.startBeat.observedAt.getTime := by
  have hfirst : ∀ {heard after} {gap : Gap}, gap ∈ (gapAt now gapMs heard previous after).toList →
      gap.startBeat = previous := fun h => by rw [(gapAt_eq_some (Option.mem_toList.mp h)).1]
  induction rest generalizing previous heard with
  | nil =>
    rw [gapsFrom_nil]
    refine ⟨fun gap hgap => by rw [hfirst hgap], ?_⟩
    cases gapAt now gapMs heard previous [] with
    | none => exact List.Pairwise.nil
    | some gap => exact List.pairwise_singleton _ gap
  | cons next rest ih =>
    obtain ⟨hprevious, hrest⟩ := List.pairwise_cons.mp hsorted
    have hnow := @ih (next :: heard) next hrest fun h => by rw [(gapAt_eq_some (Option.mem_toList.mp h)).1]
    obtain ⟨hlater, hpairwise⟩ := hnow
    have hnext := hprevious next List.mem_cons_self
    rw [gapsFrom_cons]
    refine ⟨fun gap hgap => ?_, List.pairwise_append.mpr ⟨?_, hpairwise, fun gap hgap gap' hgap' => ?_⟩⟩
    · rcases List.mem_append.mp hgap with hgap | hgap
      · rw [hfirst hgap]
      · exact hnext.trans (hlater gap hgap)
    · cases gapAt now gapMs heard previous (next :: rest) with
      | none => exact List.Pairwise.nil
      | some gap => exact List.pairwise_singleton _ gap
    · -- a gap at this place means that the next beat is later
      have hlong := (gapAt_eq_some (Option.mem_toList.mp hgap)).2
      dsimp only [List.head?_cons, Option.map_some, Option.getD_some] at hlong
      have hle := hlater gap' hgap'
      have hfloor : 0 ≤ ⌊gapMs⌋ := Int.floor_nonneg.mpr hpos
      rw [hfirst hgap]
      omega

/-- the gaps of a zone start one after the other -/
theorem heartbeatGaps_sorted (hpos : 0 ≤ gapMs) (zoneId : String) (evidence : List EvidenceEvent) :
    (heartbeatGaps zoneId evidence now gapMs).Pairwise
      fun x y => x.startBeat.observedAt.getTime < y.startBeat.observedAt.getTime := by
  have hsorted := heartbeatsFor_sorted zoneId evidence
  unfold heartbeatGaps
  cases hbeats : heartbeatsFor zoneId evidence with
  | nil => exact List.Pairwise.nil
  | cons first rest =>
    rw [hbeats] at hsorted
    exact (gapsFrom_sorted hpos hsorted).2

end

/-! ## candidates -/

/-- the candidate is what the detection makes of the silence from `s` to `e` -/
structure IsGapCandidateIn (round : ℚ → ℚ) (zoneId : String) (evidence : List EvidenceEvent) (now s e : ℤ)
    (c : CandidateEvent) : Prop where
  silence : IsSilence heartbeatGapMs now (beatTimes zoneId evidence) s e
  zone : c.zoneId = zoneId
  status : c.status = .outage
  confidence : c.confidence = gapConfidenceIn round (e - s) heartbeatGapMs (silentNodes zoneId evidence s)
  start : c.windowStart.getTime = s
  stop : c.windowEnd.getTime = e
  beat : ∃ b, startBeatAt zoneId evidence s = some b ∧ c.windowStart = b.observedAt

abbrev IsGapCandidate (zoneId : String) (evidence : List EvidenceEvent) (now s e : ℤ) (c : CandidateEvent) : Prop :=
  IsGapCandidateIn exactly zoneId evidence now s e c

section
variable {round : ℚ → ℚ} {zoneId : String} {evidence : List EvidenceEvent} {now : ℤ} {ids : ℕ → String}

/-- a gap, as the silence that it is -/
theorem isGapCandidate_buildGapCandidate {gap : Gap} (h : gap ∈ heartbeatGaps zoneId evidence now heartbeatGapMs)
    (id : String) : IsGapCandidateIn round zoneId evidence now gap.startBeat.observedAt.getTime (gap.endsAt now)
      (buildGapCandidate round zoneId now heartbeatGapMs gap id) := by
  have hgap := isGap_of_mem heartbeatGapMs_nonneg h
  have hsilence := hgap.silence
  have hnodes := hgap.nodes
  rw [floor_heartbeatGapMs] at hsilence hnodes
  refine ⟨hsilence, rfl, rfl, ?_, rfl, ?_, gap.startBeat, hgap.beat, rfl⟩
  · rw [silentNodes_eq, ← hnodes]
    rfl
  · obtain ⟨startBeat, closingBeat, nodes⟩ := gap
    cases closingBeat with
    | none => exact IsoDate.getTime_ofMillis now
    | some beat => rfl

/-- the default threshold is positive -/
theorem detect_default (round : ℚ → ℚ) (zoneId : String) (evidence : List EvidenceEvent) (now : ℤ)
    (ids : ℕ → String) : detectHeartbeatGapCandidatesIn round zoneId evidence now heartbeatGapMs ids =
      (heartbeatGaps zoneId evidence now heartbeatGapMs).mapIdx fun i gap =>
        buildGapCandidate round zoneId now heartbeatGapMs gap (ids i) :=
  if_neg (not_le.mpr (by exact_mod_cast heartbeatGapMs_pos))

theorem isGapCandidate_of_mem {c : CandidateEvent}
    (h : c ∈ detectHeartbeatGapCandidatesIn round zoneId evidence now heartbeatGapMs ids) :
    IsGapCandidateIn round zoneId evidence now c.windowStart.getTime c.windowEnd.getTime c := by
  rw [detect_default] at h
  obtain ⟨i, hi, rfl⟩ := List.mem_mapIdx.mp h
  have hgap : IsGapCandidateIn round _ _ _ _ _ _ := isGapCandidate_buildGapCandidate (List.getElem_mem hi) (ids i)
  rw [hgap.start, hgap.stop]
  exact hgap

/-- **The candidates are those of the silences.** -/
theorem exists_isGapCandidate (round : ℚ → ℚ) (ids : ℕ → String) {s e : ℤ}
    (h : IsSilence heartbeatGapMs now (beatTimes zoneId evidence) s e) :
    ∃ c ∈ detectHeartbeatGapCandidatesIn round zoneId evidence now heartbeatGapMs ids,
      IsGapCandidateIn round zoneId evidence now s e c := by
  rw [← floor_heartbeatGapMs] at h
  obtain ⟨gap, hgap, rfl, rfl⟩ := exists_gap heartbeatGapMs_nonneg h
  obtain ⟨i, hi, he⟩ := List.getElem_of_mem hgap
  rw [detect_default]
  refine ⟨_, List.mem_mapIdx.mpr ⟨i, hi, rfl⟩, ?_⟩
  rw [he]
  exact isGapCandidate_buildGapCandidate hgap (ids i)

/-- the candidates of a zone start one after the other -/
theorem starts_sorted (zoneId : String) (evidence : List EvidenceEvent) (now : ℤ) (ids : ℕ → String) :
    (detectHeartbeatGapCandidates zoneId evidence now ids).Pairwise
      fun x y => x.windowStart.getTime < y.windowStart.getTime := by
  have hgaps : (heartbeatGaps zoneId evidence now heartbeatGapMs).Pairwise
      fun x y => x.startBeat.observedAt.getTime < y.startBeat.observedAt.getTime :=
    heartbeatGaps_sorted heartbeatGapMs_nonneg zoneId evidence
  unfold detectHeartbeatGapCandidates
  rw [detect_default]
  exact pairwise_mapIdx hgaps fun _ _ _ _ h => h

end

end

end Detection
