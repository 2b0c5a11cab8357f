import GridProof.Lib.Limit
import GridProof.Ingestion.GapBounds

/-!
# A sweep of the database and a sweep of the memory

Both branches read the sensors' evidence of the lookback; the query stops after five thousand rows, the oldest
first.  What it leaves out are the latest readings.

* `zoneGaps_eq_iff`   two sweeps find the same gaps iff they see the same silences and the same confidence;
* `sweeps_agree_iff`  when the rows beyond the limit make no difference.
-/

namespace Ingestion
open Pipeline (IsoDate CandidateEvent)
open Detection (isBeat beatTimes silentNodes gapConfidence heartbeatGapMs IsGapCandidate evidenceSourceIdentity)

section
variable [JsText.Runtime]

/-! ## what is heard of a zone -/

/-- when the zone was heard of, and from whom -/
def heard (zoneId : String) (events : List EvidenceEvent) : Set (ℤ × String) :=
  {x | ∃ e ∈ events, isBeat zoneId e = true ∧ (e.observedAt.getTime, evidenceSourceIdentity e) = x}

theorem mem_beatTimes_iff {zoneId : String} {events : List EvidenceEvent} {t : ℤ} :
    t ∈ beatTimes zoneId events ↔ ∃ node, (t, node) ∈ heard zoneId events := by
  constructor
  · rintro ⟨e, he, hbeat, rfl⟩
    exact ⟨evidenceSourceIdentity e, e, he, hbeat, rfl⟩
  · rintro ⟨node, e, he, hbeat, heq⟩
    exact ⟨e, he, hbeat, (Prod.mk.inj heq).1⟩

theorem beatTimes_congr {zoneId : String} {events events' : List EvidenceEvent}
    (h : heard zoneId events = heard zoneId events') : beatTimes zoneId events = beatTimes zoneId events' := by
  ext t
  rw [mem_beatTimes_iff, mem_beatTimes_iff, h]

theorem heard_append (zoneId : String) (events events' : List EvidenceEvent) :
    heard zoneId (events ++ events') = heard zoneId events ∪ heard zoneId events' := by
  ext x
  constructor
  · rintro ⟨e, he, hx⟩
    exact (List.mem_append.mp he).imp (fun he => ⟨e, he, hx⟩) fun he => ⟨e, he, hx⟩
  · rintro (⟨e, he, hx⟩ | ⟨e, he, hx⟩)
    · exact ⟨e, List.mem_append_left _ he, hx⟩
    · exact ⟨e, List.mem_append_right _ he, hx⟩

/-- the count depends on what is heard in the threshold before -/
theorem silentNodes_congr {zoneId : String} {events events' : List EvidenceEvent} {s : ℤ}
    (h : ∀ x : ℤ × String, s - heartbeatGapMs ≤ x.1 → x.1 ≤ s → (x ∈ heard zoneId events ↔ x ∈ heard zoneId events')) :
    silentNodes zoneId events s = silentNodes zoneId events' s := by
  have hnode : ∀ (l : List EvidenceEvent) (node : String),
      (∃ e ∈ l.filter fun e => isBeat zoneId e && s - heartbeatGapMs ≤ e.observedAt.getTime &&
        e.observedAt.getTime ≤ s, evidenceSourceIdentity e = node) ↔
      ∃ t, s - heartbeatGapMs ≤ t ∧ t ≤ s ∧ (t, node) ∈ heard zoneId l := by
    intro l node
    constructor
    · rintro ⟨e, he, rfl⟩
      obtain ⟨he, hin⟩ := List.mem_filter.mp he
      rw [Bool.and_eq_true, Bool.and_eq_true, decide_eq_true_eq, decide_eq_true_eq] at hin
      exact ⟨e.observedAt.getTime, hin.1.2, hin.2, e, he, hin.1.1, rfl⟩
    · rintro ⟨t, hlo, hhi, e, he, hbeat, heq⟩
      obtain ⟨rfl, rfl⟩ := Prod.mk.inj heq
      refine ⟨e, List.mem_filter.mpr ⟨he, ?_⟩, rfl⟩
      rw [Bool.and_eq_true, Bool.and_eq_true, decide_eq_true_eq, decide_eq_true_eq]
      exact ⟨⟨hbeat, hlo⟩, hhi⟩
  unfold silentNodes
  refine ((List.perm_ext_iff_of_nodup (List.nodup_dedup _) (List.nodup_dedup _)).mpr fun node => ?_).length_eq
  rw [List.mem_dedup, List.mem_dedup, List.mem_map, List.mem_map, hnode, hnode]
  exact exists_congr fun t => and_congr_right fun hlo => and_congr_right fun hhi => h (t, node) hlo hhi

/-- a silence has the node that was heard of at its start -/
theorem silentNodes_pos {zoneId : String} {events : List EvidenceEvent} {s : ℤ}
    (h : s ∈ beatTimes zoneId events) : 1 ≤ silentNodes zoneId events s := by
  obtain ⟨e, he, hbeat, rfl⟩ := h
  unfold silentNodes
  refine List.length_pos_of_mem (a := evidenceSourceIdentity e)
    (List.mem_dedup.mpr (List.mem_map_of_mem (List.mem_filter.mpr ⟨he, ?_⟩)))
  have hpos := Detection.heartbeatGapMs_pos
  rw [Bool.and_eq_true, Bool.and_eq_true, decide_eq_true_eq, decide_eq_true_eq]
  exact ⟨⟨hbeat, by omega⟩, le_refl _⟩

/-! ## two sweeps -/

/-- what the sweep derives for the zone -/
def zoneGaps (store : EvidenceStore) (now : Int) (zoneId : String) (ids : ℕ → String) : List CandidateEvent :=
  Detection.detectHeartbeatGapCandidates zoneId (((store.sweepEvidenceByZone now).get? zoneId).getD []) now ids

/-- zone, window and confidence -/
def summary (c : CandidateEvent) : String × ℤ × ℤ × ℚ :=
  (c.zoneId, c.windowStart.getTime, c.windowEnd.getTime, c.confidence)

theorem zoneGaps_eq (store : EvidenceStore) (now : Int) (zoneId : String) (ids : ℕ → String) :
    zoneGaps store now zoneId ids =
      Detection.detectHeartbeatGapCandidates zoneId (store.sweepRows now) now ids := by
  unfold zoneGaps
  rw [store.sweepEvidenceByZone_eq, (groupEvidenceByZone_get? _ zoneId).1]
  exact detect_zone zoneId _ now ids

theorem mem_summaries {zoneId : String} {events : List EvidenceEvent} {now : ℤ} {ids : ℕ → String}
    {x : String × ℤ × ℤ × ℚ} :
    x ∈ (Detection.detectHeartbeatGapCandidates zoneId events now ids).map summary ↔
      x.1 = zoneId ∧ IsSilence heartbeatGapMs now (beatTimes zoneId events) x.2.1 x.2.2.1 ∧
        x.2.2.2 = gapConfidence (x.2.2.1 - x.2.1) heartbeatGapMs (silentNodes zoneId events x.2.1) := by
  rw [List.mem_map]
  constructor
  · rintro ⟨c, hc, rfl⟩
    have hgap := Detection.isGapCandidate_of_mem hc
    exact ⟨hgap.zone, hgap.silence, hgap.confidence⟩
  · obtain ⟨zone, s, e, confidence⟩ := x
    rintro ⟨rfl, hsilence, hconfidence⟩
    obtain ⟨c, hc, hgap⟩ := Detection.exists_isGapCandidate Pipeline.exactly ids hsilence
    refine ⟨c, hc, ?_⟩
    unfold summary
    rw [hgap.zone, hgap.start, hgap.stop, hgap.confidence]
    exact congrArg (fun q => (zone, s, e, q)) hconfidence.symm

/-- the same gaps are the same silences of the same confidence -/
theorem summaries_eq_iff {zoneId : String} {events events' : List EvidenceEvent} {now : ℤ} {ids ids' : ℕ → String} :
    (Detection.detectHeartbeatGapCandidates zoneId events now ids).map summary =
      (Detection.detectHeartbeatGapCandidates zoneId events' now ids').map summary ↔
    (∀ s e, IsSilence heartbeatGapMs now (beatTimes zoneId events) s e ↔
      IsSilence heartbeatGapMs now (beatTimes zoneId events') s e) ∧
    ∀ s e, IsSilence heartbeatGapMs now (beatTimes zoneId events') s e →
      gapConfidence (e - s) heartbeatGapMs (silentNodes zoneId events s) =
        gapConfidence (e - s) heartbeatGapMs (silentNodes zoneId events' s) := by
  constructor
  · intro h
    have hmem : ∀ s e q, (IsSilence heartbeatGapMs now (beatTimes zoneId events) s e ∧
        q = gapConfidence (e - s) heartbeatGapMs (silentNodes zoneId events s)) ↔
        IsSilence heartbeatGapMs now (beatTimes zoneId events') s e ∧
          q = gapConfidence (e - s) heartbeatGapMs (silentNodes zoneId events' s) := by
      intro s e q
      have hx := congrArg ((zoneId, s, e, q) ∈ ·) h
      rw [mem_summaries, mem_summaries, eq_iff_iff] at hx
      dsimp only at hx
      rw [and_iff_right rfl, and_iff_right rfl] at hx
      exact hx
    exact ⟨fun s e => ⟨fun hs => ((hmem s e _).mp ⟨hs, rfl⟩).1, fun hs => ((hmem s e _).mpr ⟨hs, rfl⟩).1⟩,
      fun s e hs => ((hmem s e _).mpr ⟨hs, rfl⟩).2.symm⟩
  · rintro ⟨hsilence, hconfidence⟩
    have hsorted : ∀ (l : List EvidenceEvent) (ids : ℕ → String),
        ((Detection.detectHeartbeatGapCandidates zoneId l now ids).map summary).Pairwise
          fun x y => x.2.1 < y.2.1 := by
      intro l ids
      exact List.pairwise_map.mpr (Detection.starts_sorted zoneId l now ids)
    have : Std.Irrefl fun x y : String × ℤ × ℤ × ℚ => x.2.1 < y.2.1 := ⟨fun x => lt_irrefl x.2.1⟩
    have : Std.Antisymm fun x y : String × ℤ × ℤ × ℚ => x.2.1 < y.2.1 :=
      ⟨fun x y hxy hyx => absurd hyx (lt_asymm hxy)⟩
    refine List.Pairwise.eq_of_mem_iff (hsorted events ids) (hsorted events' ids') fun x => ?_
    rw [mem_summaries, mem_summaries, hsilence]
    refine and_congr_right fun _ => and_congr_right fun hs => ?_
    rw [hconfidence _ _ hs]

/-! ## what the limit leaves out -/

/-- the rows of the lookback behind the first five thousand -/
def cutRows (d : Database) (rank : EvidenceEvent → ℕ) (now : Int) : List EvidenceEvent :=
  (((d.evidence.values.filter (inLookback now)).insertionSort (oldestFirst rank)).drop 5000).map mapEvidenceRow

/-- more silent nodes would not raise the confidence of a silence of this length -/
def Saturated (lengthMs : ℤ) (nodes : ℕ) : Prop :=
  9500 ≤ 6000 + (min (lengthMs - heartbeatGapMs) (2 * heartbeatGapMs) + 180) / 360 + 600 * ((nodes : ℤ) - 1)

/-- the rows that are left out do not add to the nodes of a silence that starts at the last row that is read -/
def SameNodes (zoneId : String) (now : ℤ) (kept cut : List EvidenceEvent) : Prop :=
  ∀ b, IsGreatest (beatTimes zoneId kept) b → b + heartbeatGapMs < now →
    silentNodes zoneId (kept ++ cut) b = silentNodes zoneId kept b ∨
      Saturated (now - b) (silentNodes zoneId (kept ++ cut) b) ∧ Saturated (now - b) (silentNodes zoneId kept b)

omit [JsText.Runtime] in
theorem gapConfidence_inj {lengthMs : ℤ} {nodes nodes' : ℕ} (hlong : heartbeatGapMs < lengthMs) (h : 1 ≤ nodes)
    (h' : 1 ≤ nodes') : gapConfidence lengthMs heartbeatGapMs nodes = gapConfidence lengthMs heartbeatGapMs nodes' ↔
      nodes = nodes' ∨ Saturated lengthMs nodes ∧ Saturated lengthMs nodes' := by
  unfold Saturated
  rw [Detection.gapConfidence_eq hlong h, Detection.gapConfidence_eq hlong h', div_left_inj' (by norm_num),
    Int.cast_inj]
  omega

omit [JsText.Runtime] in
theorem getTime_le_of_oldestFirst {rank : EvidenceEvent → ℕ} {a b : EvidenceEvent} (h : oldestFirst rank a b) :
    a.observedAt.getTime ≤ b.observedAt.getTime := by
  refine Int.ediv_le_ediv (by decide) ?_
  rcases h with h | h
  · exact h.le
  · exact h.1.le

omit [JsText.Runtime] in
instance oldestFirst_total (rank : EvidenceEvent → ℕ) : Std.Total (oldestFirst rank) where
  total a b := by
    unfold oldestFirst
    omega

omit [JsText.Runtime] in
instance oldestFirst_trans (rank : EvidenceEvent → ℕ) : IsTrans EvidenceEvent (oldestFirst rank) where
  trans a b c := by
    unfold oldestFirst
    omega

omit [JsText.Runtime] in
theorem mapEvidenceRow_getTime (row : EvidenceEvent) :
    (mapEvidenceRow row).observedAt.getTime = row.observedAt.getTime :=
  Detection.IsoDate.getTime_ofMillis _

omit [JsText.Runtime] in
/-- what is left out is not older than what is read -/
theorem kept_le_cut {d : Database} {rank : EvidenceEvent → ℕ} {now : Int} {zoneId : String} :
    ∀ k ∈ beatTimes zoneId (EvidenceStore.sweepRows now (.database d rank)),
      ∀ c ∈ beatTimes zoneId (cutRows d rank now), k ≤ c := by
  rintro k ⟨a, ha, -, rfl⟩ c ⟨b, hb, -, rfl⟩
  obtain ⟨row, hrow, rfl⟩ := List.mem_map.mp ha
  obtain ⟨row', hrow', rfl⟩ := List.mem_map.mp hb
  have hsorted := List.pairwise_insertionSort (oldestFirst rank) (d.evidence.values.filter (inLookback now))
  rw [← List.take_append_drop 5000 (List.insertionSort _ _), List.pairwise_append] at hsorted
  rw [mapEvidenceRow_getTime, mapEvidenceRow_getTime]
  exact getTime_le_of_oldestFirst (hsorted.2.2 row hrow row' hrow')

/-- either branch reads the readings of the lookback -/
theorem heard_memory (m : Memory) (now : Int) (zoneId : String) :
    heard zoneId (EvidenceStore.sweepRows now (.memory m)) =
      {x | x ∈ heard zoneId (EvidenceStore.evidence (.memory m)) ∧ now - sweepLookbackMs ≤ x.1} := by
  ext x
  constructor
  · rintro ⟨e, he, hbeat, rfl⟩
    obtain ⟨he, hrecent⟩ := List.mem_filter.mp he
    unfold EvidenceStore.recent at hrecent
    rw [Bool.and_eq_true, decide_eq_true_eq, decide_eq_true_eq] at hrecent
    exact ⟨⟨e, he, hbeat, rfl⟩, hrecent.2⟩
  · rintro ⟨⟨e, he, hbeat, rfl⟩, hold⟩
    refine ⟨e, List.mem_filter.mpr ⟨he, ?_⟩, hbeat, rfl⟩
    unfold EvidenceStore.recent
    rw [Bool.and_eq_true, decide_eq_true_eq, decide_eq_true_eq]
    exact ⟨(Detection.isBeat_iff.mp hbeat).2, hold⟩

theorem heard_database (d : Database) (rank : EvidenceEvent → ℕ) (now : Int) (zoneId : String) :
    heard zoneId (EvidenceStore.sweepRows now (.database d rank) ++ cutRows d rank now) =
      {x | x ∈ heard zoneId (EvidenceStore.evidence (.database d rank)) ∧ now - sweepLookbackMs ≤ x.1} := by
  have hrows : ∀ e, e ∈ EvidenceStore.sweepRows now (.database d rank) ++ cutRows d rank now ↔
      ∃ row ∈ d.evidence.values, inLookback now row = true ∧ mapEvidenceRow row = e := by
    intro e
    unfold EvidenceStore.sweepRows cutRows
    rw [← List.map_append, List.take_append_drop, List.mem_map]
    simp only [List.mem_insertionSort, List.mem_filter, and_assoc]
  have hlookback : ∀ row, inLookback now row = true ↔
      row.source = .sensor ∧ now - sweepLookbackMs ≤ (mapEvidenceRow row).observedAt.getTime := by
    intro row
    rw [mapEvidenceRow_getTime]
    unfold inLookback
    rw [Bool.and_eq_true, decide_eq_true_eq, decide_eq_true_eq]
    refine and_congr_right fun _ => ?_
    unfold IsoDate.getTime
    omega
  ext x
  constructor
  · rintro ⟨e, he, hbeat, rfl⟩
    obtain ⟨row, hrow, hin, rfl⟩ := (hrows e).mp he
    exact ⟨⟨mapEvidenceRow row, List.mem_map_of_mem hrow, hbeat, rfl⟩, ((hlookback row).mp hin).2⟩
  · rintro ⟨⟨e, he, hbeat, rfl⟩, hold⟩
    obtain ⟨row, hrow, rfl⟩ := List.mem_map.mp he
    exact ⟨mapEvidenceRow row, (hrows _).mpr ⟨row, hrow, (hlookback row).mpr
      ⟨(Detection.isBeat_iff.mp hbeat).2, hold⟩, rfl⟩, hbeat, rfl⟩

/-- **The two branches agree on a zone iff the rows beyond the limit leave no silence of the zone behind and do not
count for one.** -/
theorem sweeps_agree_iff (m : Memory) (d : Database) (rank : EvidenceEvent → ℕ) (now : Int) (zoneId : String)
    (ids ids' : ℕ → String) (hsame : heard zoneId (EvidenceStore.evidence (.memory m)) =
      heard zoneId (EvidenceStore.evidence (.database d rank))) :
    (zoneGaps (.memory m) now zoneId ids).map summary =
      (zoneGaps (.database d rank) now zoneId ids').map summary ↔
    Bridged heartbeatGapMs now (beatTimes zoneId (EvidenceStore.sweepRows now (.database d rank)))
        (beatTimes zoneId (cutRows d rank now)) ∧
      SameNodes zoneId now (EvidenceStore.sweepRows now (.database d rank)) (cutRows d rank now) := by
  rw [zoneGaps_eq, zoneGaps_eq, summaries_eq_iff]
  have hheard : heard zoneId (EvidenceStore.sweepRows now (.memory m)) =
      heard zoneId (EvidenceStore.sweepRows now (.database d rank) ++ cutRows d rank now) := by
    rw [heard_memory, heard_database, hsame]
  have hcut := @kept_le_cut d rank now zoneId
  rw [beatTimes_congr hheard]
  have hnodes : ∀ s, silentNodes zoneId (EvidenceStore.sweepRows now (.memory m)) s =
      silentNodes zoneId (EvidenceStore.sweepRows now (.database d rank) ++ cutRows d rank now) s :=
    fun s => silentNodes_congr fun x _ _ => by rw [hheard]
  simp only [hnodes]
  generalize EvidenceStore.sweepRows now (.database d rank) = kept at hcut ⊢
  generalize cutRows d rank now = cut at hcut ⊢
  have htimes : beatTimes zoneId (kept ++ cut) = beatTimes zoneId kept ∪ beatTimes zoneId cut := by
    ext t
    simp only [mem_beatTimes_iff, heard_append, Set.mem_union, exists_or]
  have hpos := Detection.heartbeatGapMs_pos
  rw [htimes, isSilence_cut_iff hpos.le hcut]
  refine and_congr_right fun _ => ?_
  constructor
  · intro h b hb hlong
    have hsilence := (isSilence_last hpos.le hb).mpr ⟨rfl, hlong⟩
    refine (gapConfidence_inj hsilence.long ?_ (silentNodes_pos hb.1)).mp (h b now hsilence)
    refine silentNodes_pos ?_
    rw [htimes]
    exact .inl hb.1
  · intro h s e hsilence
    by_cases hlast : IsGreatest (beatTimes zoneId kept) s
    · obtain ⟨rfl, hlong⟩ := (isSilence_last hpos.le hlast).mp hsilence
      refine (gapConfidence_inj hsilence.long ?_ (silentNodes_pos hlast.1)).mpr (h s hlast hlong)
      refine silentNodes_pos ?_
      rw [htimes]
      exact .inl hlast.1
    · -- a later row is read, and what is left out is later still
      have hlater : ∃ b ∈ beatTimes zoneId kept, s < b := by
        by_contra hnone
        exact hlast ⟨hsilence.start, fun t ht => le_of_not_gt fun hst => hnone ⟨t, ht, hst⟩⟩
      obtain ⟨b, hb, hsb⟩ := hlater
      refine congrArg _ (silentNodes_congr fun x _ hx => ?_)
      rw [heard_append]
      refine or_iff_left fun hxcut => ?_
      have := hcut b hb x.1 (mem_beatTimes_iff.mpr ⟨x.2, hxcut⟩)
      omega

/-- rows that say nothing of a zone make no difference to it -/
theorem cut_unheard {zoneId : String} {kept cut : List EvidenceEvent} {now : ℤ} (h : heard zoneId cut = ∅) :
    Bridged heartbeatGapMs now (beatTimes zoneId kept) (beatTimes zoneId cut) ∧ SameNodes zoneId now kept cut := by
  have hnone : beatTimes zoneId cut = ∅ := by
    ext t
    rw [mem_beatTimes_iff, h]
    exact iff_of_false (fun ⟨_, hx⟩ => hx) (Set.notMem_empty t)
  refine ⟨(isSilence_cut_iff Detection.heartbeatGapMs_pos.le fun k _ c hc => ?_).mp fun s e => ?_, fun b _ _ => ?_⟩
  · rw [hnone] at hc
    exact absurd hc (Set.notMem_empty c)
  · rw [hnone, Set.union_empty]
  · refine .inl (silentNodes_congr fun x _ _ => ?_)
    rw [heard_append, h, Set.union_empty]

theorem heard_mapEvidenceRow (zoneId : String) (events : List EvidenceEvent) :
    heard zoneId (events.map mapEvidenceRow) = heard zoneId events := by
  have hrow : ∀ row, (evidenceSourceIdentity (mapEvidenceRow row)) = evidenceSourceIdentity row := fun row => rfl
  ext x
  constructor
  · rintro ⟨e, he, hbeat, rfl⟩
    obtain ⟨row, hrow', rfl⟩ := List.mem_map.mp he
    exact ⟨row, hrow', hbeat, by rw [mapEvidenceRow_getTime, hrow]⟩
  · rintro ⟨row, hrow', hbeat, rfl⟩
    exact ⟨mapEvidenceRow row, List.mem_map_of_mem hrow', hbeat, by rw [mapEvidenceRow_getTime, hrow]⟩

end

/-! ## a large fleet -/

def quietRow : EvidenceEvent := feederEvent "quiet" "meter" .sensor 3 3

def fleetZone : String := "cccccccc-cccc-4ccc-8ccc-cccccccccccc"

def fleetKey (n : ℕ) : String := String.ofList (List.replicate n 'x')

/-- a reading of 14:00 in another zone -/
def fleetRow (n : ℕ) : EvidenceEvent :=
  { feederEvent (fleetKey n) "meter" .sensor 0 0 with zoneId := fleetZone }

/-- five thousand readings of one minute, and one of another zone three minutes later -/
def fleet : OrderedMap String EvidenceEvent where
  entries := (List.range 5000).map (fun n => (fleetKey n, fleetRow n)) ++ [("quiet", quietRow)]
  nodup := by
    rw [List.map_append, List.map_map]
    refine (List.nodup_range.map fun i j h => ?_).append (List.nodup_singleton _) ?_
    · have hlen := congrArg (fun s => s.toList.length) h
      dsimp only [Function.comp_apply, fleetKey] at hlen
      rw [String.toList_ofList, String.toList_ofList, List.length_replicate, List.length_replicate] at hlen
      exact hlen
    · refine List.disjoint_singleton.mpr fun hin => ?_
      obtain ⟨n, -, h⟩ := List.mem_map.mp hin
      have hq : 'q' ∈ (fleetKey n).toList := by
        rw [show fleetKey n = "quiet" from h]
        decide
      unfold fleetKey at hq
      rw [String.toList_ofList] at hq
      exact absurd (List.eq_of_mem_replicate hq) (by decide)

theorem fleet_values : fleet.values = (List.range 5000).map fleetRow ++ [quietRow] := by
  unfold OrderedMap.values fleet
  rw [List.map_append, List.map_map]
  rfl

theorem mem_fleet {e : EvidenceEvent} (he : e ∈ fleet.values) : (∃ n, e = fleetRow n) ∨ e = quietRow := by
  rw [fleet_values] at he
  rcases List.mem_append.mp he with he | he
  · obtain ⟨n, -, rfl⟩ := List.mem_map.mp he
    exact .inl ⟨n, rfl⟩
  · exact .inr (List.mem_singleton.mp he)

theorem fleetRow_inLookback (n : ℕ) : inLookback 1767276600000 (fleetRow n) = true := by
  show inLookback 1767276600000 (fleetRow 0) = true
  decide +kernel

/-- the rows that the query of the large fleet sorts -/
theorem fleet_inLookback : fleet.values.filter (inLookback 1767276600000) = fleet.values := by
  refine List.filter_eq_self.mpr fun e he => ?_
  rcases mem_fleet he with ⟨n, rfl⟩ | rfl
  · exact fleetRow_inLookback n
  · decide +kernel

theorem quietRow_beyond : quietRow ∉ (fleet.values.insertionSort (oldestFirst fun _ => 0)).take 5000 := by
  refine Limit.not_mem_take _ ?_
  have hbefore : ∀ n, ¬ oldestFirst (fun _ => 0) quietRow (fleetRow n) := fun n => by
    show ¬ oldestFirst (fun _ => 0) quietRow (fleetRow 0)
    decide +kernel
  have hlen : (((List.range 5000).map fleetRow).filter fun e =>
      decide (¬ oldestFirst (fun _ => 0) quietRow e)).length = 5000 := by
    rw [List.filter_eq_self.mpr, List.length_map, List.length_range]
    intro e he
    obtain ⟨n, -, rfl⟩ := List.mem_map.mp he
    exact decide_eq_true (hbefore n)
  rw [fleet_values, List.filter_append, List.length_append, hlen]
  exact Nat.le_add_right 5000 _

/-- of the large fleet one row is left out -/
theorem fleet_cut : cutRows ⟨fleet, .empty⟩ (fun _ => 0) 1767276600000 = [mapEvidenceRow quietRow] := by
  have hlength : (fleet.values.insertionSort (oldestFirst fun _ => 0)).length = 5001 := by
    rw [List.length_insertionSort, fleet_values, List.length_append, List.length_map, List.length_range]
    rfl
  have hone : ((fleet.values.insertionSort (oldestFirst fun _ => 0)).drop 5000).length = 1 := by
    rw [List.length_drop, hlength]
  obtain ⟨row, hrow⟩ := List.length_eq_one_iff.mp hone
  have hin : quietRow ∈ fleet.values.insertionSort (oldestFirst fun _ => 0) := by
    rw [List.mem_insertionSort, fleet_values]
    exact List.mem_append_right _ (List.mem_singleton.mpr rfl)
  rw [← List.take_append_drop 5000 (fleet.values.insertionSort _), hrow] at hin
  have hquiet := List.mem_singleton.mp ((List.mem_append.mp hin).resolve_left quietRow_beyond)
  unfold cutRows
  dsimp only
  rw [fleet_inLookback, hrow, ← hquiet, List.map_singleton]

theorem fleet_times :
    (fleetRow 0).observedAt.getTime = 1767276000000 ∧ quietRow.observedAt.getTime = 1767276180000 := by
  decide +kernel

/-- readings of 14:00 from two meters and of 14:09 from one of them, and one of another zone -/
def twoZones : OrderedMap String EvidenceEvent where
  entries := [feederEvent "a" "meter 1" .sensor 0 0, feederEvent "b" "meter 2" .sensor 1 1,
    { feederEvent "c" "meter 3" .sensor 5 5 with zoneId := fleetZone }, feederEvent "d" "meter 1" .sensor 9 9].map
      fun e => (e.idempotencyKey, e)
  nodup := by decide

/-- a silence that has ended and one that lasts, of two meters and of one; and the zone whose large fleet is read
whole -/
theorem fleets_agree : letI := JsText.asciiRuntime
    ((zoneGaps (.memory ⟨twoZones, .empty⟩) 1767276960000 feederZone (feederIds "")).map summary =
        (zoneGaps (.database ⟨twoZones, .empty⟩ fun _ => 0) 1767276960000 feederZone (feederIds "")).map summary ∧
      (zoneGaps (.memory ⟨twoZones, .empty⟩) 1767276960000 feederZone (feederIds "")).map summary =
        [(feederZone, 1767276060000, 1767276540000, 6933 / 10000),
          (feederZone, 1767276540000, 1767276960000, 6167 / 10000)]) ∧
    (zoneGaps (.memory ⟨fleet, .empty⟩) 1767276600000 fleetZone (feederIds "")).map summary =
        (zoneGaps (.database ⟨fleet, .empty⟩ fun _ => 0) 1767276600000 fleetZone (feederIds "")).map summary ∧
      ∃ q, (fleetZone, 1767276000000, 1767276600000, q) ∈
        (zoneGaps (.memory ⟨fleet, .empty⟩) 1767276600000 fleetZone (feederIds "")).map summary := by
  let _ := JsText.asciiRuntime
  refine ⟨⟨?_, by decide +kernel⟩, ?_, ?_⟩
  · refine (sweeps_agree_iff _ _ _ _ _ _ _ (heard_mapEvidenceRow feederZone _).symm).mpr (cut_unheard ?_)
    have hcut : cutRows ⟨twoZones, .empty⟩ (fun _ => 0) 1767276960000 = [] := by
      unfold cutRows
      rw [List.drop_of_length_le, List.map_nil]
      rw [List.length_insertionSort]
      exact (List.length_filter_le _ _).trans (by decide)
    rw [hcut]
    exact Set.eq_empty_of_forall_notMem fun x ⟨_, he, _⟩ => List.not_mem_nil he
  · refine (sweeps_agree_iff _ _ _ _ _ _ _ (heard_mapEvidenceRow fleetZone _).symm).mpr (cut_unheard ?_)
    rw [fleet_cut]
    refine Set.eq_empty_of_forall_notMem fun x ⟨e, he, hbeat, _⟩ => ?_
    obtain rfl := List.mem_singleton.mp he
    exact absurd hbeat (by decide)
  · rw [zoneGaps_eq]
    refine ⟨gapConfidence (1767276600000 - 1767276000000) heartbeatGapMs (silentNodes _ _ _),
      mem_summaries.mpr ⟨rfl, ?_, rfl⟩⟩
    have hbeat : ∀ n, isBeat fleetZone (fleetRow n) = true := fun n => by
      show isBeat fleetZone (fleetRow 0) = true
      decide +kernel
    have hrecent : ∀ n, EvidenceStore.recent 1767276600000 (fleetRow n) = true := fun n => by
      show EvidenceStore.recent 1767276600000 (fleetRow 0) = true
      decide +kernel
    refine ⟨⟨fleetRow 0, List.mem_filter.mpr ⟨?_, hrecent 0⟩, hbeat 0, fleet_times.1⟩, by decide, .inr ⟨rfl, ?_⟩⟩
    · rw [fleet_values]
      exact List.mem_append_left _ (List.mem_map_of_mem (List.mem_range.mpr (by decide)))
    · rintro t ⟨e, he, hbeat', rfl⟩
      rcases mem_fleet (List.mem_filter.mp he).1 with ⟨n, rfl⟩ | rfl
      · exact fleet_times.1.le
      · exact absurd hbeat' (by decide)

/-- **Behind five thousand older readings the silence of a zone is not found in the database.** -/
theorem large_fleet : letI := JsText.asciiRuntime
    heard feederZone (EvidenceStore.evidence (.memory ⟨fleet, .empty⟩)) =
        heard feederZone (EvidenceStore.evidence (.database ⟨fleet, .empty⟩ fun _ => 0)) ∧
      (zoneGaps (.memory ⟨fleet, .empty⟩) 1767276600000 feederZone (feederIds "")).map summary ≠
        (zoneGaps (.database ⟨fleet, .empty⟩ fun _ => 0) 1767276600000 feederZone (feederIds "")).map summary := by
  let _ := JsText.asciiRuntime
  refine ⟨(heard_mapEvidenceRow feederZone _).symm, fun h => ?_⟩
  rw [zoneGaps_eq, zoneGaps_eq, summaries_eq_iff] at h
  have hzone : ∀ n, isBeat feederZone (fleetRow n) = false := fun n => by
    show (decide (fleetZone = feederZone) && _) = false
    rw [decide_eq_false (by decide), Bool.false_and]
  have hquiet : EvidenceStore.recent 1767276600000 quietRow = true ∧ isBeat feederZone quietRow = true := by
    decide +kernel
  -- the memory sees the reading of 14:03 and nothing of the zone after it
  have hsilence : IsSilence heartbeatGapMs 1767276600000
      (beatTimes feederZone (EvidenceStore.sweepRows 1767276600000 (.memory ⟨fleet, .empty⟩)))
      1767276180000 1767276600000 := by
    refine ⟨⟨quietRow, List.mem_filter.mpr ⟨?_, hquiet.1⟩, hquiet.2, fleet_times.2⟩, by decide, .inr ⟨rfl, ?_⟩⟩
    · rw [fleet_values]
      exact List.mem_append_right _ (List.mem_singleton.mpr rfl)
    · rintro t ⟨e, he, hbeat, rfl⟩
      rcases mem_fleet (List.mem_filter.mp he).1 with ⟨n, rfl⟩ | rfl
      · rw [hzone n] at hbeat
        cases hbeat
      · exact fleet_times.2.le
  -- the database does not
  obtain ⟨e, he, hbeat, -⟩ := ((h.1 _ _).mp hsilence).start
  obtain ⟨row, hrow, rfl⟩ := List.mem_map.mp he
  rcases mem_fleet (List.mem_filter.mp (Limit.mem_of_mem_take _ hrow)).1 with ⟨n, rfl⟩ | rfl
  · exact Bool.false_ne_true ((hzone n).symm.trans hbeat)
  · rw [fleet_inLookback] at hrow
    exact quietRow_beyond hrow

end Ingestion
