import Mathlib.Data.Finset.Card
import GridProof.Lib.Champion
import GridProof.Detection.Rules

/-!
# Agreement counts witnesses

`scoreCrossSourceAgreement` goes through rows and counts the devices and persons behind them.

* `tally_agreeing`, `tally_conflicting`   the two maps of the loop, as loops over the rows that agree and that do not;
* `agreeing_eq_card`, `conflicting_eq_card`   the counts are numbers of identities;
* `score_congr`         the score depends on the members of the list only;
* `counts_witnesses`    rows that say nothing new change no count.
-/

namespace Detection
open Ingestion (EvidenceEvent EvidenceStatus)

section
variable [JsText.Runtime]

/-! ## rows that count -/

/-- a reading of the subject's zone and window, of known status and by another witness -/
def InWindow (subject other : EvidenceEvent) : Prop :=
  other.zoneId = subject.zoneId ∧ other.status ≠ .unknown ∧
    evidenceSourceIdentity other ≠ evidenceSourceIdentity subject ∧
    (other.observedAt.getTime - subject.observedAt.getTime).natAbs ≤ agreementWindowMs

instance (subject other : EvidenceEvent) : Decidable (InWindow subject other) :=
  inferInstanceAs (Decidable (_ ∧ _ ∧ _ ∧ _))

theorem counts_iff {subject other : EvidenceEvent} :
    counts subject other = true ↔ other.id ≠ subject.id ∧ InWindow subject other := by
  unfold counts InWindow
  simp only [Bool.and_eq_true, decide_eq_true_eq, and_assoc]

def agrees (subject other : EvidenceEvent) : Bool := counts subject other && other.status = subject.status

def contradicts (subject other : EvidenceEvent) : Bool := counts subject other && other.status ≠ subject.status

theorem agrees_iff {subject other : EvidenceEvent} :
    agrees subject other = true ↔ counts subject other = true ∧ other.status = subject.status := by
  unfold agrees
  rw [Bool.and_eq_true, decide_eq_true_eq]

theorem contradicts_iff {subject other : EvidenceEvent} :
    contradicts subject other = true ↔ counts subject other = true ∧ other.status ≠ subject.status := by
  unfold contradicts
  rw [Bool.and_eq_true, decide_eq_true_eq]

/-! ## the loop -/

section
variable {subject other : EvidenceEvent} {t : Tally}

theorem add_agrees (h : agrees subject other = true) : t.add subject other =
    { t with agreeingByIdentity := Champion.keep isEarlier evidenceSourceIdentity t.agreeingByIdentity other } := by
  obtain ⟨hcounts, hstatus⟩ := agrees_iff.mp h
  unfold Tally.add Champion.keep
  rw [hcounts, Bool.not_true, if_neg Bool.false_ne_true]
  dsimp only
  rw [if_neg (not_not_intro hstatus)]
  cases t.agreeingByIdentity.get? (evidenceSourceIdentity other) with
  | none => rfl
  | some existing =>
    dsimp only
    split
    · rfl
    · rfl

theorem add_contradicts (h : contradicts subject other = true) : t.add subject other =
    { t with conflictingIdentities := t.conflictingIdentities.insert (evidenceSourceIdentity other) } := by
  obtain ⟨hcounts, hstatus⟩ := contradicts_iff.mp h
  unfold Tally.add
  rw [hcounts, Bool.not_true, if_neg Bool.false_ne_true]
  dsimp only
  rw [if_pos hstatus]

theorem add_other (h : counts subject other = false) : t.add subject other = t := by
  unfold Tally.add
  rw [h, Bool.not_false, if_pos rfl]

/-- a row agrees, contradicts, or does not count -/
theorem row_cases (subject other : EvidenceEvent) :
    (agrees subject other = true ∧ contradicts subject other = false) ∨
      (agrees subject other = false ∧ contradicts subject other = true) ∨
      (agrees subject other = false ∧ contradicts subject other = false ∧ counts subject other = false) := by
  unfold agrees contradicts
  cases counts subject other with
  | false => exact .inr (.inr ⟨rfl, rfl, rfl⟩)
  | true =>
    by_cases hstatus : other.status = subject.status
    · exact .inl ⟨decide_eq_true hstatus, decide_eq_false (not_not_intro hstatus)⟩
    · exact .inr (.inl ⟨decide_eq_false hstatus, decide_eq_true hstatus⟩)

end

theorem foldl_add (subject : EvidenceEvent) (l : List EvidenceEvent) (t : Tally) :
    l.foldl (Tally.add subject) t =
      ⟨(l.filter (agrees subject)).foldl (Champion.keep isEarlier evidenceSourceIdentity) t.agreeingByIdentity,
        (l.filter (contradicts subject)).foldl (fun ids other => ids.insert (evidenceSourceIdentity other))
          t.conflictingIdentities⟩ := by
  induction l generalizing t with
  | nil => rfl
  | cons other l ih =>
    rw [List.foldl_cons, ih]
    rcases row_cases subject other with ⟨hagrees, hnot⟩ | ⟨hnot, hcontradicts⟩ | ⟨hnot, hnot', hcounts⟩
    · rw [add_agrees hagrees, List.filter_cons_of_pos hagrees,
        List.filter_cons_of_neg (Bool.eq_false_iff.mp hnot), List.foldl_cons]
    · rw [add_contradicts hcontradicts, List.filter_cons_of_pos hcontradicts,
        List.filter_cons_of_neg (Bool.eq_false_iff.mp hnot), List.foldl_cons]
    · rw [add_other hcounts, List.filter_cons_of_neg (Bool.eq_false_iff.mp hnot),
        List.filter_cons_of_neg (Bool.eq_false_iff.mp hnot')]

theorem tally_agreeing (subject : EvidenceEvent) (l : List EvidenceEvent) : (tally subject l).agreeingByIdentity =
    (l.filter (agrees subject)).foldl (Champion.keep isEarlier evidenceSourceIdentity) .empty := by
  unfold tally
  rw [foldl_add]
  rfl

theorem tally_conflictingIdentities (subject : EvidenceEvent) (l : List EvidenceEvent) :
    (tally subject l).conflictingIdentities =
      (l.filter (contradicts subject)).foldl (fun ids other => ids.insert (evidenceSourceIdentity other)) [] := by
  unfold tally
  rw [foldl_add]
  rfl

/-! ## the counts -/

/-- who stands behind the rows -/
def identities (l : List EvidenceEvent) : Finset String := (l.map evidenceSourceIdentity).toFinset

theorem mem_identities {l : List EvidenceEvent} {x : String} :
    x ∈ identities l ↔ ∃ e ∈ l, evidenceSourceIdentity e = x := by
  unfold identities
  rw [List.mem_toFinset, List.mem_map]

theorem identities_congr {l l' : List EvidenceEvent} (h : ∀ e, e ∈ l' ↔ e ∈ l) : identities l' = identities l := by
  ext x
  simp only [mem_identities, h]

theorem values_length (l : List EvidenceEvent) :
    (l.foldl (Champion.keep isEarlier evidenceSourceIdentity) .empty).values.length = (identities l).card := by
  have hkeys : ((l.foldl (Champion.keep isEarlier evidenceSourceIdentity) .empty).entries.map Prod.fst).toFinset =
      identities l := by
    ext x
    rw [List.mem_toFinset, mem_identities, ← not_iff_not, ← OrderedMap.get?_eq_none, Champion.foldl_keep_keys]
    simp only [not_exists, not_and]
  rw [← hkeys, List.toFinset_card_of_nodup (OrderedMap.nodup _), List.length_map]
  exact List.length_map _

theorem foldl_insert (l : List EvidenceEvent) {ids : List String} (hids : ids.Nodup) :
    (l.foldl (fun ids other => ids.insert (evidenceSourceIdentity other)) ids).Nodup ∧
      (l.foldl (fun ids other => ids.insert (evidenceSourceIdentity other)) ids).toFinset =
        ids.toFinset ∪ identities l := by
  induction l generalizing ids with
  | nil => exact ⟨hids, (Finset.union_empty _).symm⟩
  | cons other l ih =>
    obtain ⟨hnodup, hset⟩ := ih (hids.insert (a := evidenceSourceIdentity other))
    refine ⟨hnodup, hset.trans ?_⟩
    ext x
    simp only [Finset.mem_union, List.mem_toFinset, List.mem_insert_iff, mem_identities, List.exists_mem_cons_iff]
    tauto

variable (subject : EvidenceEvent) (l : List EvidenceEvent)

theorem agreeing_eq_card : (scoreCrossSourceAgreement subject l).agreeing =
    (identities (l.filter (agrees subject))).card := by
  show (List.insertionSort _ (tally subject l).agreeingByIdentity.values).length = _
  rw [List.length_insertionSort, tally_agreeing, values_length]

theorem conflicting_eq_card : (scoreCrossSourceAgreement subject l).conflicting =
    (identities (l.filter (contradicts subject))).card := by
  show (tally subject l).conflictingIdentities.length = _
  obtain ⟨hnodup, hset⟩ := foldl_insert (l.filter (contradicts subject)) List.nodup_nil
  rw [tally_conflictingIdentities, ← List.toFinset_card_of_nodup hnodup, hset, List.toFinset_nil,
    Finset.empty_union]

/-! ## the score -/

/-- the events that stand for the agreeing witnesses, in no order yet -/
def agreeingEvents : List EvidenceEvent := (tally subject l).agreeingByIdentity.values

variable {subject l} {l' : List EvidenceEvent}

theorem mem_agreeingEvents {e : EvidenceEvent} (h : e ∈ agreeingEvents subject l) :
    e ∈ l ∧ agrees subject e = true := by
  unfold agreeingEvents at h
  rw [tally_agreeing] at h
  obtain ⟨k, hk⟩ := OrderedMap.mem_values.mp h
  exact List.mem_filter.mp (Champion.of_get?_foldl_keep hk).1

theorem agreeingEvents_nodup : (agreeingEvents subject l).Nodup := by
  unfold agreeingEvents
  rw [tally_agreeing]
  exact OrderedMap.values_nodup fun k v h => (Champion.of_get?_foldl_keep h).2

/-- time and then id order events of distinct ids strictly -/
theorem isEarlier_strict (hids : ∀ a ∈ l, ∀ b ∈ l, a.id = b.id → a = b)
    (hcompare : Comparator.TotalOn JsText.localeCompare fun id => ∃ e ∈ l, e.id = id) :
    Comparator.Strict isEarlier l := by
  have hid : ∀ a ∈ l, ∃ e ∈ l, e.id = a.id := fun a ha => ⟨a, ha, rfl⟩
  have hiff : ∀ a b, isEarlier a b = true ↔ a.observedAt.getTime < b.observedAt.getTime ∨
      a.observedAt.getTime = b.observedAt.getTime ∧ JsText.localeCompare a.id b.id < 0 := by
    intro a b
    unfold isEarlier
    dsimp only
    split
    · rename_i hne
      rw [decide_eq_true_eq]
      exact ⟨.inl, fun h => h.resolve_right fun heq => hne heq.1⟩
    · rename_i heq
      rw [decide_eq_true_eq, not_not.mp heq]
      exact ⟨fun h => .inr ⟨rfl, h⟩, fun h => (h.resolve_left (lt_irrefl _)).2⟩
  refine ⟨fun a ha => ?_, fun a ha b hb c hc hab hbc => ?_, fun a ha b hb hne => ?_⟩
  · by_contra hself
    rcases (hiff a a).mp (Bool.eq_true_of_not_eq_false hself) with h | ⟨-, h⟩
    · exact lt_irrefl _ h
    · have hzero := (hcompare.zero _ _ (hid a ha) (hid a ha)).mpr rfl
      omega
  · rw [hiff] at *
    rcases hab with hab | ⟨hab, hle⟩
    · rcases hbc with hbc | ⟨hbc, -⟩
      · exact .inl (hab.trans hbc)
      · exact .inl (hbc ▸ hab)
    · rcases hbc with hbc | ⟨hbc, hle'⟩
      · exact .inl (hab ▸ hbc)
      · exact .inr ⟨hab.trans hbc, hcompare.trans _ _ _ (hid a ha) (hid b hb) (hid c hc) hle hle'⟩
  · rw [hiff, hiff]
    rcases lt_trichotomy a.observedAt.getTime b.observedAt.getTime with hlt | heq | hgt
    · exact .inl (.inl hlt)
    · have hids : a.id ≠ b.id := fun h => hne (hids a ha b hb h)
      refine (hcompare.total (hid a ha) (hid b hb)).imp (fun h => .inr ⟨heq, ?_⟩) fun h => .inr ⟨heq.symm, ?_⟩
      · exact hcompare.neg_of_ne (hid a ha) (hid b hb) h hids
      · exact hcompare.neg_of_ne (hid b hb) (hid a ha) h (Ne.symm hids)
    · exact .inr (.inl hgt)

/-- the score depends on the rows that agree and on those that contradict, as sets -/
theorem score_congr (hids : ∀ a ∈ l, ∀ b ∈ l, a.id = b.id → a = b)
    (hcompare : Comparator.TotalOn JsText.localeCompare fun id => ∃ e ∈ l, e.id = id)
    (hagree : ∀ e, e ∈ l'.filter (agrees subject) ↔ e ∈ l.filter (agrees subject))
    (hcontradict : ∀ e, e ∈ l'.filter (contradicts subject) ↔ e ∈ l.filter (contradicts subject)) :
    scoreCrossSourceAgreement subject l' = scoreCrossSourceAgreement subject l := by
  have hstrict := isEarlier_strict hids hcompare
  have hrows : Comparator.Strict isEarlier (l.filter (agrees subject)) :=
    hstrict.mono fun e he => (List.mem_filter.mp he).1
  have hevents : Comparator.Strict isEarlier (agreeingEvents subject l) :=
    hstrict.mono fun e he => (mem_agreeingEvents he).1
  have hperm : (agreeingEvents subject l').Perm (agreeingEvents subject l) := by
    unfold agreeingEvents
    rw [tally_agreeing, tally_agreeing]
    exact OrderedMap.values_perm fun k => Champion.get?_foldl_keep_congr hrows hagree
  have hsorted := hevents.insertionSort_perm agreeingEvents_nodup hperm
  unfold agreeingEvents at hsorted
  have hconflicting : (tally subject l').conflictingIdentities.length =
      (tally subject l).conflictingIdentities.length := by
    show (scoreCrossSourceAgreement subject l').conflicting = (scoreCrossSourceAgreement subject l).conflicting
    rw [conflicting_eq_card, conflicting_eq_card, identities_congr hcontradict]
  unfold scoreCrossSourceAgreement
  dsimp only
  rw [hsorted, hconflicting]

/-! ## witnesses, not rows -/

variable (subject l)

/-- what the score counts, and what it does not -/
structure CountsWitnesses : Prop where
  /-- rows in another order, or more than once -/
  unordered : ∀ l', (∀ e, e ∈ l' ↔ e ∈ l) →
    scoreCrossSourceAgreement subject l' = scoreCrossSourceAgreement subject l
  /-- of the subject's own device, of another zone, of unknown status, or too far away -/
  irrelevant : ∀ e l', (∀ x, x ∈ l' ↔ x ∈ l ∨ x = e) →
    (evidenceSourceIdentity e = evidenceSourceIdentity subject ∨ e.zoneId ≠ subject.zoneId ∨ e.status = .unknown ∨
      agreementWindowMs < (e.observedAt.getTime - subject.observedAt.getTime).natAbs) →
    scoreCrossSourceAgreement subject l' = scoreCrossSourceAgreement subject l
  /-- of a witness that is counted with this status -/
  repeated : ∀ e l', (∀ x, x ∈ l' ↔ x ∈ l ∨ x = e) →
    (∃ other ∈ l, InWindow subject other ∧ evidenceSourceIdentity other = evidenceSourceIdentity e ∧
      other.status = e.status) →
    (scoreCrossSourceAgreement subject l').agreeing = (scoreCrossSourceAgreement subject l).agreeing ∧
      (scoreCrossSourceAgreement subject l').conflicting = (scoreCrossSourceAgreement subject l).conflicting
  agreeing : (scoreCrossSourceAgreement subject l).agreeing =
    (identities (l.filter fun e => InWindow subject e ∧ e.status = subject.status)).card
  conflicting : (scoreCrossSourceAgreement subject l).conflicting =
    (identities (l.filter fun e => InWindow subject e ∧ e.status ≠ subject.status)).card

variable {subject l}

/-- one row more, in whose presence the rows that meet `p` have the same identities -/
theorem identities_repeated {p : EvidenceEvent → Bool} {e : EvidenceEvent} (hmem : ∀ x, x ∈ l' ↔ x ∈ l ∨ x = e)
    (hother : p e = true → ∃ other ∈ l, p other = true ∧ evidenceSourceIdentity other = evidenceSourceIdentity e) :
    identities (l'.filter p) = identities (l.filter p) := by
  ext x
  simp only [mem_identities, List.mem_filter]
  constructor
  · rintro ⟨y, ⟨hy, hp⟩, rfl⟩
    rcases (hmem y).mp hy with hy | rfl
    · exact ⟨y, ⟨hy, hp⟩, rfl⟩
    · obtain ⟨other, ho, hpo, hidentity⟩ := hother hp
      exact ⟨other, ⟨ho, hpo⟩, hidentity⟩
  · rintro ⟨y, ⟨hy, hp⟩, rfl⟩
    exact ⟨y, ⟨(hmem y).mpr (.inl hy), hp⟩, rfl⟩

/-- **Agreement counts witnesses, not rows.** -/
theorem counts_witnesses (hids : ∀ a ∈ subject :: l, ∀ b ∈ subject :: l, a.id = b.id → a = b)
    (hcompare : Comparator.TotalOn JsText.localeCompare fun id => ∃ e ∈ l, e.id = id) :
    CountsWitnesses subject l := by
  have hlist : ∀ a ∈ l, ∀ b ∈ l, a.id = b.id → a = b := fun a ha b hb =>
    hids a (List.mem_cons_of_mem _ ha) b (List.mem_cons_of_mem _ hb)
  -- a row in the window is not the subject's
  have hcounts : ∀ e ∈ l, counts subject e = true ↔ InWindow subject e := by
    intro e he
    refine counts_iff.trans (and_iff_right_of_imp fun hwindow hid => ?_)
    have hself := hids e (List.mem_cons_of_mem _ he) subject List.mem_cons_self hid
    exact hwindow.2.2.1 (by rw [hself])
  refine ⟨fun l' hmem => ?_, fun e l' hmem hirrelevant => ?_, fun e l' hmem hcounted => ?_, ?_, ?_⟩
  · exact score_congr hlist hcompare (fun e => by rw [List.mem_filter, List.mem_filter, hmem])
      fun e => by rw [List.mem_filter, List.mem_filter, hmem]
  · have hnot : counts subject e = false := by
      refine Bool.eq_false_iff.mpr fun hcount => ?_
      obtain ⟨-, hzone, hstatus, hidentity, hnear⟩ := counts_iff.mp hcount
      rcases hirrelevant with h | h | h | h
      · exact hidentity h
      · exact h hzone
      · exact hstatus h
      · omega
    have hfilter (p : EvidenceEvent → Bool) (hp : p e = false) (x : EvidenceEvent) :
        x ∈ l'.filter p ↔ x ∈ l.filter p := by
      rw [List.mem_filter, List.mem_filter, hmem]
      refine and_congr_left fun hx => or_iff_left ?_
      rintro rfl
      rw [hp] at hx
      cases hx
    exact score_congr hlist hcompare (hfilter _ (by unfold agrees; rw [hnot]; rfl))
      (hfilter _ (by unfold contradicts; rw [hnot]; rfl))
  · obtain ⟨other, ho, hwindow, hidentity, hstatus⟩ := hcounted
    have hother := (hcounts other ho).mpr hwindow
    rw [agreeing_eq_card, agreeing_eq_card, conflicting_eq_card, conflicting_eq_card]
    constructor
    · rw [identities_repeated hmem fun hagree => ⟨other, ho, ?_, hidentity⟩]
      exact agrees_iff.mpr ⟨hother, hstatus.trans (agrees_iff.mp hagree).2⟩
    · rw [identities_repeated hmem fun hcontradict => ⟨other, ho, ?_, hidentity⟩]
      exact contradicts_iff.mpr ⟨hother, fun h => (contradicts_iff.mp hcontradict).2 (hstatus ▸ h)⟩
  · rw [agreeing_eq_card]
    refine congrArg Finset.card (congrArg identities (List.filter_congr fun e he => ?_))
    rw [Bool.eq_iff_iff, agrees_iff, hcounts e he, decide_eq_true_eq]
  · rw [conflicting_eq_card]
    refine congrArg Finset.card (congrArg identities (List.filter_congr fun e he => ?_))
    rw [Bool.eq_iff_iff, contradicts_iff, hcounts e he, decide_eq_true_eq]

end

/-- a reading of a meter at noon -/
def noonReading (id deviceId : String) (status : EvidenceStatus) : EvidenceEvent where
  id := id
  providerId := "p1"
  zoneId := "z1"
  idempotencyKey := id
  source := .sensor
  status := status
  voltage := none
  currentAmps := none
  confidenceHint := none
  rawPayload := .telemetry deviceId "0x1111111111111111111111111111111111111111" none
  observedAt := ⟨"2026-01-01T12:00:00Z", 1767268800000000⟩
  receivedAt := ⟨"2026-01-01T12:00:00Z", 1767268800000000⟩

/-- one meter says both -/
theorem counts_witnesses_noon : letI := JsText.asciiRuntime
    CountsWitnesses (noonReading "e0" "meter-1" .gridDown)
      [noonReading "e2" "meter-2" .gridDown, noonReading "e1" "meter-2" .gridUp,
        noonReading "e3" "meter-2" .gridDown] := by
  let _ := JsText.asciiRuntime
  exact counts_witnesses (by decide +kernel) (Comparator.totalOn_codePoints _)

end Detection
