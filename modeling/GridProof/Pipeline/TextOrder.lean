import GridProof.Lib.JsText
import GridProof.Pipeline.ApprovalOrder
import GridProof.Pipeline.Binding
import GridProof.Pipeline.Worker

/-!
# The two stores order candidates differently

The database compares the instants of `window_end`; the store in memory filters by instants, but sorts by
the texts.  Besides, `timestamptz` rounds a text to microseconds where `new Date` cuts it to milliseconds, and
a column of type `uuid` holds a zone id in lower case where memory keeps it as a request spelled it.

* `SameCandidates`        the stores hold the same candidates and the same approvals;
* `OrderedAlike`          the zone, the hour, its candidates and their order are the same for texts and values;
* `recompute_agrees_iff`  exactly then both stores recompute the same score;
* `offset_reorders`       a window's end with an offset, and two different hashes.
-/

namespace Pipeline

open Comparator

/-! ## the two stores -/

/-- the candidate as its row holds it: the zone id in lower case, which the evidence behind the candidate was
read back in already, and the window's end read by `timestamptz` in microseconds; the other uuids are of
`randomUUID` -/
def CandidateEvent.stored (timestamptz : String → Int) (c : CandidateEvent) : CandidateEvent :=
  { c with
    zoneId := JsText.asciiLower c.zoneId
    windowEnd := ⟨c.windowEnd.text, timestamptz c.windowEnd.text⟩ }

/-- the stores hold the same candidates, each with at most one decision, the same in both -/
structure SameCandidates (timestamptz : String → Int) (m : Memory) (db : Db) : Prop where
  keyed : ∀ id c, m.memoryCandidatesById.get? id = some c → c.id = id
  candidates : ∀ e, (∃ row ∈ db.candidates.rows, row.event = e) ↔
    ∃ c ∈ m.memoryCandidatesById.values, c.stored timestamptz = e
  approved : ∀ c ∈ m.memoryCandidatesById.values, (m.approved c.id ↔ db.Approved c.id)
  once : ∀ c ∈ m.memoryCandidatesById.values, db.ApprovedOnce c.id

/-- an approved candidate of the process -/
def Memory.HoldsApproved (m : Memory) (c : CandidateEvent) : Prop :=
  c ∈ m.memoryCandidatesById.values ∧ m.approved c.id

/-- around the candidate, texts tell the same as uuids and instants: its own zone and hour, which approved
candidates are of them, and how these are ordered -/
structure OrderedAlike (localeCompare : String → String → Int) (timestamptz : String → Int) (m : Memory)
    (c : CandidateEvent) : Prop where
  own : (c.stored timestamptz).epochKey = c.epochKey
  members : ∀ a, m.HoldsApproved a → ((a.stored timestamptz).epochKey = c.epochKey ↔ a.epochKey = c.epochKey)
  order : ∀ a b, m.HoldsApproved a → m.HoldsApproved b → a.epochKey = c.epochKey → b.epochKey = c.epochKey →
    (notAfter localeCompare a b ↔ windowOrder (a.stored timestamptz) (b.stored timestamptz))

section
variable {localeCompare : String → String → Int} {timestamptz : String → Int} {m : Memory} {db : Db}
  {c : CandidateEvent}

theorem Memory.mem_approvedCandidates_iff {key : String × EpochStart} {a : CandidateEvent} :
    a ∈ m.approvedCandidates localeCompare key.1 key.2 ↔ m.HoldsApproved a ∧ a.epochKey = key := by
  rw [Memory.mem_approvedCandidates, Memory.HoldsApproved, and_assoc]

namespace SameCandidates

variable (h : SameCandidates timestamptz m db)

include h

theorem eq_of_id {a b : CandidateEvent} (ha : a ∈ m.memoryCandidatesById.values)
    (hb : b ∈ m.memoryCandidatesById.values) (hid : a.id = b.id) : a = b := by
  obtain ⟨i, hai⟩ := OrderedMap.mem_values.mp ha
  obtain ⟨j, hbj⟩ := OrderedMap.mem_values.mp hb
  rw [← h.keyed i a hai, hid, h.keyed j b hbj, hbj] at hai
  exact (Option.some.inj hai).symm

theorem stored_inj {a b : CandidateEvent} (ha : a ∈ m.memoryCandidatesById.values)
    (hb : b ∈ m.memoryCandidatesById.values) (he : a.stored timestamptz = b.stored timestamptz) : a = b :=
  h.eq_of_id ha hb (CandidateEvent.mk.inj he).1

theorem nodup {zoneId : String} {epochStart : EpochStart} :
    (m.approvedCandidates localeCompare zoneId epochStart).Nodup := by
  unfold Memory.approvedCandidates
  rw [(List.perm_insertionSort _ _).nodup_iff]
  exact (OrderedMap.values_nodup h.keyed).filter _

/-- the query lists each approved candidate once -/
theorem selectApproved_eq (zoneId : String) (epochStart : EpochStart) :
    selectApproved db zoneId epochStart = approvedCandidates db zoneId epochStart := by
  refine selectApproved_eq_iff.mpr fun row hrow _ => ?_
  obtain ⟨a, ha, hstored⟩ := (h.candidates row.event).mp ⟨row, hrow, rfl⟩
  have hid : row.id = (a.stored timestamptz).id := congrArg CandidateEvent.id hstored.symm
  rw [hid]
  exact h.once a ha

/-- what the query lists: the stored forms of approved candidates -/
theorem mem_selectApproved {key : String × EpochStart} {e : CandidateEvent} :
    e ∈ selectApproved db key.1 key.2 ↔ ∃ a, m.HoldsApproved a ∧ a.stored timestamptz = e ∧
      (a.stored timestamptz).epochKey = key := by
  rw [Pipeline.mem_selectApproved, h.candidates, CandidateEvent.inEpoch_iff]
  constructor
  · rintro ⟨⟨a, ha, rfl⟩, hkey, happ⟩
    exact ⟨a, ⟨ha, (h.approved a ha).mpr happ⟩, rfl, hkey⟩
  · rintro ⟨a, ⟨ha, happ⟩, rfl, hkey⟩
    exact ⟨⟨a, ha, rfl⟩, hkey, (h.approved a ha).mp happ⟩

end SameCandidates

/-! ## the two lists -/

/-- `localeCompare` is a total order on the timestamps and on the ids of the hour's approved candidates -/
structure Compares (localeCompare : String → String → Int) (m : Memory) (zoneId : String)
    (epochStart : EpochStart) : Prop where
  texts : TotalOn localeCompare fun t =>
    ∃ a ∈ m.approvedCandidates localeCompare zoneId epochStart, a.windowEnd.text = t
  ids : TotalOn localeCompare fun i =>
    ∃ a ∈ m.approvedCandidates localeCompare zoneId epochStart, a.id = i

namespace SameCandidates

variable (h : SameCandidates timestamptz m db) {key : String × EpochStart}

include h

theorem byKeys (hcmp : Compares localeCompare m key.1 key.2) :
    ByKeys localeCompare localeCompare (fun a => a.windowEnd.text) CandidateEvent.id (notAfter localeCompare)
      (m.approvedCandidates localeCompare key.1 key.2) where
  first := hcmp.texts
  second := hcmp.ids
  inj _ ha _ hb := h.eq_of_id (Memory.mem_approvedCandidates_iff.mp ha).1.1
    (Memory.mem_approvedCandidates_iff.mp hb).1.1
  rel _ _ := Iff.rfl

theorem pairwise (hcmp : Compares localeCompare m key.1 key.2) :
    (m.approvedCandidates localeCompare key.1 key.2).Pairwise (notAfter localeCompare) := by
  have hkeys := h.byKeys hcmp
  unfold Memory.approvedCandidates at hkeys ⊢
  refine Comparator.pairwise_insertionSort (fun a ha b hb => ?_) fun a ha b hb c hc => ?_
  · exact hkeys.total ((List.mem_insertionSort _).mpr ha) ((List.mem_insertionSort _).mpr hb)
  · exact hkeys.trans ((List.mem_insertionSort _).mpr ha) ((List.mem_insertionSort _).mpr hb)
      ((List.mem_insertionSort _).mpr hc)

/-- where the lists are the same, so are the hours and the orders -/
theorem orderedAlike_of_map (hcmp : Compares localeCompare m c.epochKey.1 c.epochKey.2)
    (hown : (c.stored timestamptz).epochKey = c.epochKey)
    (hmap : (m.approvedCandidates localeCompare c.epochKey.1 c.epochKey.2).map
      (CandidateEvent.stored timestamptz) = selectApproved db c.epochKey.1 c.epochKey.2) :
    OrderedAlike localeCompare timestamptz m c := by
  have hstored : ∀ a, m.HoldsApproved a →
      ((a.stored timestamptz).epochKey = c.epochKey ↔ a.epochKey = c.epochKey) := by
    intro a ha
    constructor
    · intro hkey
      have hmem := h.mem_selectApproved.mpr ⟨a, ha, rfl, hkey⟩
      rw [← hmap, List.mem_map] at hmem
      obtain ⟨b, hb, hba⟩ := hmem
      obtain ⟨hb, hbkey⟩ := Memory.mem_approvedCandidates_iff.mp hb
      exact h.stored_inj hb.1 ha.1 hba ▸ hbkey
    · intro hkey
      have hmem : a.stored timestamptz ∈ selectApproved db c.epochKey.1 c.epochKey.2 := by
        rw [← hmap]
        exact List.mem_map_of_mem (Memory.mem_approvedCandidates_iff.mpr ⟨ha, hkey⟩)
      obtain ⟨b, hb, hba, hbkey⟩ := h.mem_selectApproved.mp hmem
      exact h.stored_inj hb.1 ha.1 hba ▸ hbkey
  refine ⟨hown, hstored, fun a b ha hb hakey hbkey => ?_⟩
  -- of two candidates the one that stands first is before the other for the texts and for the instants
  have hsorted : (selectApproved db c.epochKey.1 c.epochKey.2).Pairwise windowOrder :=
    List.pairwise_insertionSort windowOrder _
  rw [← hmap, List.pairwise_map] at hsorted
  have hin : ∀ a ∈ m.approvedCandidates localeCompare c.epochKey.1 c.epochKey.2,
      a ∈ m.memoryCandidatesById.values := fun a ha => (Memory.mem_approvedCandidates_iff.mp ha).1.1
  refine agree_of_pairwise (h.pairwise hcmp) hsorted (fun a ha => iff_of_true ?_ ?_) (fun a ha b hb => ?_)
    (fun a ha b hb hab hba => ?_) (Memory.mem_approvedCandidates_iff.mpr ⟨ha, hakey⟩)
    (Memory.mem_approvedCandidates_iff.mpr ⟨hb, hbkey⟩)
  · exact or_self_iff.mp ((h.byKeys hcmp).total ha ha)
  · exact .inr ⟨rfl, String.le_refl _⟩
  · exact (h.byKeys hcmp).antisymm ha hb
  · exact h.eq_of_id (hin a ha) (hin b hb) (windowOrder.antisymm_id (a := a.stored timestamptz)
      (b := b.stored timestamptz) hab hba)

/-- where the hours and the orders are the same, so are the lists -/
theorem map_of_orderedAlike (hcmp : Compares localeCompare m c.epochKey.1 c.epochKey.2)
    (halike : OrderedAlike localeCompare timestamptz m c) :
    (m.approvedCandidates localeCompare c.epochKey.1 c.epochKey.2).map
      (CandidateEvent.stored timestamptz) = selectApproved db c.epochKey.1 c.epochKey.2 := by
  have hnd : ((m.approvedCandidates localeCompare c.epochKey.1 c.epochKey.2).map
      (CandidateEvent.stored timestamptz)).Nodup := by
    refine List.Nodup.map_on (fun a ha b hb he => ?_) h.nodup
    exact h.stored_inj (Memory.mem_approvedCandidates_iff.mp ha).1.1
      (Memory.mem_approvedCandidates_iff.mp hb).1.1 he
  rw [h.selectApproved_eq]
  refine approvedCandidates_unique hnd ?_ fun e => ?_
  · rw [List.pairwise_map]
    refine (h.pairwise hcmp).imp_of_mem fun {a b} ha hb hab => ?_
    obtain ⟨ha, hakey⟩ := Memory.mem_approvedCandidates_iff.mp ha
    obtain ⟨hb, hbkey⟩ := Memory.mem_approvedCandidates_iff.mp hb
    exact (halike.order a b ha hb hakey hbkey).mp hab
  · rw [← Pipeline.mem_selectApproved, h.mem_selectApproved, List.mem_map]
    constructor
    · rintro ⟨a, ha, rfl⟩
      obtain ⟨ha, hkey⟩ := Memory.mem_approvedCandidates_iff.mp ha
      exact ⟨a, ha, rfl, (halike.members a ha).mpr hkey⟩
    · rintro ⟨a, ha, rfl, hkey⟩
      exact ⟨a, Memory.mem_approvedCandidates_iff.mpr ⟨ha, (halike.members a ha).mp hkey⟩, rfl⟩

end SameCandidates

/-! ## the two scores -/

theorem eq_of_map_eq {α β : Type*} {f : α → β} {l l' : List α}
    (hinj : ∀ a ∈ l, ∀ b ∈ l', f a = f b → a = b) (h : l.map f = l'.map f) : l = l' := by
  induction l generalizing l' with
  | nil => exact (List.map_eq_nil_iff.mp h.symm).symm
  | cons a l ih =>
    cases l' with
    | nil => cases h
    | cons b l' =>
      obtain ⟨hab, hrest⟩ := List.cons.inj h
      rw [hinj a List.mem_cons_self b List.mem_cons_self hab, ih (fun x hx y hy =>
        hinj x (List.mem_cons_of_mem a hx) y (List.mem_cons_of_mem b hy)) hrest]

/-- what a recompute of the database returns -/
theorem recomputeDatabaseEpochScore_eq_some {db' : Db} {es : EpochScore}
    (h : recomputeDatabaseEpochScore db c = some (db', es)) :
    let votes := (selectApproved db c.zoneId (floorToEpoch c.windowEnd)).map CandidateEvent.vote
    es.epochStart = floorToEpoch c.windowEnd ∧ es.uptimeBps = uptimeBps votes ∧
      es.evidenceHash = evidenceHash c.zoneId (floorToEpoch c.windowEnd) votes := by
  obtain ⟨-, r, -, hkey, hcounted, rfl⟩ := upsertEpochScore_eq_some h
  obtain ⟨hzone, hstart⟩ := Prod.mk.inj hkey
  have hvalid := r.valid
  rw [hcounted, hzone, hstart] at hvalid
  exact ⟨hstart, hvalid⟩

/-- **Exactly where the texts of the zones and of the windows' ends tell what the uuids and the instants tell,
both stores recompute the same score.** -/
theorem recompute_agrees_iff (h : SameCandidates timestamptz m db)
    (hcmp : Compares localeCompare m c.zoneId (floorToEpoch c.windowEnd)) {row : CandidateRow}
    (hrow : row.event = c.stored timestamptz) {held : CandidateEvent} (hheld : row.HeldAs held) {db' : Db}
    {es : EpochScore} (hdb : recomputeDatabaseEpochScore db held = some (db', es))
    (hsha : NoCollision
      (evidenceText held.zoneId (floorToEpoch held.windowEnd)
        ((selectApproved db held.zoneId (floorToEpoch held.windowEnd)).map CandidateEvent.vote))
      (evidenceText c.zoneId (floorToEpoch c.windowEnd)
        ((m.approvedCandidates localeCompare c.zoneId (floorToEpoch c.windowEnd)).map CandidateEvent.vote))) :
    (es.epochStart = (recomputeMemoryEpochScore localeCompare m c).epochStart ∧
      es.uptimeBps = (recomputeMemoryEpochScore localeCompare m c).uptimeBps ∧
      es.evidenceHash = (recomputeMemoryEpochScore localeCompare m c).evidenceHash) ↔
    OrderedAlike localeCompare timestamptz m c := by
  obtain ⟨hstart, huptime, hhash⟩ := recomputeDatabaseEpochScore_eq_some hdb
  have hzone : held.zoneId = (c.stored timestamptz).zoneId := by rw [hheld.zoneId, hrow]
  have hfloor : floorToEpoch held.windowEnd = floorToEpoch (c.stored timestamptz).windowEnd := by
    rw [hheld.floorToEpoch, hrow]
  rw [hzone, hfloor] at hsha hhash huptime
  rw [hstart, hfloor, huptime, hhash]
  have hvotes : ∀ l : List CandidateEvent, (l.map (CandidateEvent.stored timestamptz)).map
      CandidateEvent.vote = l.map CandidateEvent.vote := fun l => List.map_map
  constructor
  · rintro ⟨hhour, -, hsame⟩
    have htext := hsha ((String.append_right_inj _).mp hsame)
    have hown : (c.stored timestamptz).epochKey = c.epochKey := Prod.ext (evidenceText_zone htext) hhour
    have hids := evidenceText_ids htext
    have hselect : selectApproved db (c.stored timestamptz).zoneId (floorToEpoch (c.stored timestamptz).windowEnd) =
        selectApproved db c.epochKey.1 c.epochKey.2 := by
      rw [← hown]
      rfl
    refine h.orderedAlike_of_map hcmp hown (eq_of_map_eq (f := CandidateEvent.id) ?_ ?_)
    · intro x hx y hy hid
      obtain ⟨a, ha, rfl⟩ := List.mem_map.mp hx
      obtain ⟨b, hb, rfl, -⟩ := h.mem_selectApproved.mp hy
      rw [h.eq_of_id (Memory.mem_approvedCandidates_iff.mp ha).1.1 hb.1 hid]
    · rw [hselect, List.map_map, List.map_map] at hids
      rw [List.map_map]
      exact hids.symm
  · intro halike
    have hmap := h.map_of_orderedAlike hcmp halike
    obtain ⟨hzone, hhour⟩ := Prod.mk.inj (show ((c.stored timestamptz).zoneId, _) = (c.zoneId, _) from halike.own)
    rw [hzone, hhour]
    refine ⟨rfl, ?_⟩
    show uptimeBps ((selectApproved db c.epochKey.1 c.epochKey.2).map _) = _ ∧
      evidenceHash _ _ ((selectApproved db c.epochKey.1 c.epochKey.2).map _) = _
    rw [← hmap, hvotes]
    exact ⟨rfl, rfl⟩

end

/-! ## an offset -/

/-- a candidate of the zone whose window ends at the time of the text -/
def endingAt (id : String) (status : CandidateStatus) (text : String) : CandidateEvent :=
  { (sampleRow id status (9 / 10)).event with windowEnd := ⟨text, Calendar.readMicros text⟩ }

/-- a quarter of an hour before the other, with an offset in its text -/
def offsetEnd : CandidateEvent := endingAt "c1" .outage "2026-01-01T14:30:00+01:00"

def zuluEnd : CandidateEvent := endingAt "c2" .restored "2026-01-01T13:45:00Z"

def offsetMemory : Memory :=
  ((Runs.run (MemoryOp.next compareCodePoints) .empty
    [.ingest "k1" offsetEnd none "d1" sampleTime, .ingest "k2" zuluEnd none "d2" sampleTime]).getD .empty)

def offsetSystem : System :=
  ((Runs.run next .empty [.ingest ⟨"k1", offsetEnd⟩ none "d1" sampleTime,
    .ingest ⟨"k2", zuluEnd⟩ none "d2" sampleTime]).getD .empty)

theorem offset_values : offsetMemory.memoryCandidatesById.entries = [("c1", offsetEnd), ("c2", zuluEnd)] := by
  decide +kernel

theorem offset_rows : offsetSystem.db.candidates.rows = [⟨"k1", offsetEnd⟩, ⟨"k2", zuluEnd⟩] := by
  decide +kernel

theorem offset_same : SameCandidates Calendar.readMicros offsetMemory offsetSystem.db := by
  have hvalues : offsetMemory.memoryCandidatesById.values = [offsetEnd, zuluEnd] := by
    unfold OrderedMap.values
    rw [offset_values]
    rfl
  refine ⟨fun id c hc => ?_, fun e => ?_, fun c hc => ?_, fun c hc => ?_⟩
  · rw [OrderedMap.get?_eq_some, offset_values] at hc
    simp only [List.mem_cons, Prod.mk.injEq, List.not_mem_nil, or_false] at hc
    rcases hc with ⟨rfl, rfl⟩ | ⟨rfl, rfl⟩
    · rfl
    · rfl
  · rw [hvalues, offset_rows]
    simp only [List.mem_cons, List.not_mem_nil, or_false, exists_eq_or_imp, exists_eq_left]
    rfl
  · have happ : ∀ c ∈ offsetMemory.memoryCandidatesById.values,
        (offsetMemory.approved c.id ↔ offsetSystem.db.Approved c.id) := by
      decide +kernel
    exact happ c hc
  · have honce : ∀ c ∈ offsetMemory.memoryCandidatesById.values, offsetSystem.db.ApprovedOnce c.id := by
      decide +kernel
    exact honce c hc

/-- the digits of a hash, from the characters of the text -/
theorem sha256Hex_toList (l : List Char) : (sha256Hex (String.ofList l)).toList =
    (Sha256.digest (l.flatMap fun c => (String.utf8EncodeChar c).map UInt8.toBitVec)).flatMap fun b =>
      [Sha256.hexDigit (b.toNat / 16), Sha256.hexDigit (b.toNat % 16)] := by
  unfold sha256Hex Sha256.hex Sha256.utf8
  rw [String.toList_ofList, String.toList_ofList]

theorem offset_hashes :
    evidenceHash offsetEnd.zoneId (floorToEpoch offsetEnd.windowEnd) [offsetEnd.vote, zuluEnd.vote] ≠
      evidenceHash offsetEnd.zoneId (floorToEpoch offsetEnd.windowEnd) [zuluEnd.vote, offsetEnd.vote] := by
  rw [← approvedHash_votes, ← approvedHash_votes]
  unfold approvedHash hashedText
  intro h
  have hdigits := congrArg String.toList ((String.append_right_inj _).mp h)
  rw [sha256Hex_toList, sha256Hex_toList] at hdigits
  revert hdigits
  decide +kernel

theorem offset_scores : ∃ db' es, recomputeDatabaseEpochScore offsetSystem.db offsetEnd = some (db', es) ∧
    es.evidenceHash ≠ (recomputeMemoryEpochScore compareCodePoints offsetMemory offsetEnd).evidenceHash := by
  have hsome : (recomputeDatabaseEpochScore offsetSystem.db offsetEnd).isSome = true := by decide +kernel
  have hdatabase : (selectApproved offsetSystem.db offsetEnd.zoneId (floorToEpoch offsetEnd.windowEnd)).map
      CandidateEvent.vote = [offsetEnd.vote, zuluEnd.vote] := by
    decide +kernel
  have hmemory : (offsetMemory.approvedCandidates compareCodePoints offsetEnd.zoneId
      (floorToEpoch offsetEnd.windowEnd)).map CandidateEvent.vote = [zuluEnd.vote, offsetEnd.vote] := by
    decide +kernel
  obtain ⟨⟨db', es⟩, hdb⟩ := Option.isSome_iff_exists.mp hsome
  obtain ⟨-, -, hhash⟩ := recomputeDatabaseEpochScore_eq_some hdb
  refine ⟨db', es, hdb, ?_⟩
  rw [hhash, hdatabase]
  show _ ≠ evidenceHash _ _ _
  rw [hmemory]
  exact offset_hashes

theorem offset_compares : Compares compareCodePoints offsetMemory offsetEnd.zoneId
    (floorToEpoch offsetEnd.windowEnd) :=
  ⟨compareCodePoints_totalOn _, compareCodePoints_totalOn _⟩

/-- **The earlier window end is written with an offset**: the store in memory lists it second, the database
first, and the hashes differ. -/
theorem offset_reorders : ∃ db' es, SameCandidates Calendar.readMicros offsetMemory offsetSystem.db ∧
    Compares compareCodePoints offsetMemory offsetEnd.zoneId (floorToEpoch offsetEnd.windowEnd) ∧
    recomputeDatabaseEpochScore offsetSystem.db offsetEnd = some (db', es) ∧
    es.evidenceHash ≠ (recomputeMemoryEpochScore compareCodePoints offsetMemory offsetEnd).evidenceHash := by
  obtain ⟨db', es, hdb, hne⟩ := offset_scores
  exact ⟨db', es, offset_same, offset_compares, hdb, hne⟩

theorem offset_not_alike : ¬ OrderedAlike compareCodePoints Calendar.readMicros offsetMemory offsetEnd := by
  obtain ⟨db', es, hdb, hne⟩ := offset_scores
  have hhash := (recomputeDatabaseEpochScore_eq_some hdb).2.2
  have hheld : CandidateRow.HeldAs ⟨"k1", offsetEnd⟩ offsetEnd := .inl rfl
  intro halike
  refine hne ((recompute_agrees_iff offset_same offset_compares rfl hheld hdb fun hsha => ?_).mpr halike).2.2
  rw [hhash] at hne
  exact absurd (congrArg ("0x" ++ ·) hsha) hne

end Pipeline
