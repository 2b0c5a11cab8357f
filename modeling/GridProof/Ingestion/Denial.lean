import GridProof.Ingestion.Duplicates

/-!
# Messages that deny supply

What the webhook stores for a text like "no light", where the words for supply and for its absence share a noun.

* `containsWord_iff`   a pattern matches where one of its words stands in the text;
* `Denies`             "no", blanks, and a noun;
* `denial_iff`         a denial is not stored as supply iff its noun is no word for supply by itself, or a word for
  its absence stands in the text.

The pattern for absence has one blank and no plural, and the pattern for supply has the noun alone.
-/

namespace Ingestion

/-! ## words in a text -/

/-- between these two parts, `w` is a word -/
def Stands (w before after : List Char) : Prop :=
  boundary before.getLast? w.head? = true ∧ boundary w.getLast? after.head? = true

/-- the word stands somewhere in the text -/
def Mentions (text : List Char) (word : String) : Prop :=
  ∃ before after, text = before ++ (word.toList ++ after) ∧ Stands word.toList before after

theorem wordAt_iff {word rest : List Char} {left : Option Char} (hword : word ≠ []) :
    wordAt word left rest = true ↔ ∃ after, rest = word ++ after ∧ boundary left word.head? = true ∧
      boundary word.getLast? after.head? = true := by
  unfold wordAt
  rw [Bool.and_eq_true, Bool.and_eq_true, List.isPrefixOf_iff_prefix, List.getLast?_eq_some_getLast hword,
    Option.some_or, and_assoc]
  constructor
  · rintro ⟨⟨after, rfl⟩, hleft, hright⟩
    rw [List.drop_left] at hright
    rw [List.head?_append_of_ne_nil _ hword] at hleft
    exact ⟨after, rfl, hleft, hright⟩
  · rintro ⟨after, rfl, hleft, hright⟩
    rw [List.drop_left, List.head?_append_of_ne_nil _ hword]
    exact ⟨⟨after, rfl⟩, hleft, hright⟩

/-- the word stands in the rest of a text, with this character before it -/
def StandsIn (word : List Char) (left : Option Char) (rest : List Char) : Prop :=
  ∃ before after, rest = before ++ (word ++ after) ∧ boundary (before.getLast?.or left) word.head? = true ∧
    boundary word.getLast? after.head? = true

theorem standsIn_nil {word : List Char} (hword : word ≠ []) (left : Option Char) :
    StandsIn word left [] ↔ wordAt word left [] = true := by
  rw [wordAt_iff hword]
  constructor
  · rintro ⟨before, after, htext, -⟩
    have hempty := (List.append_eq_nil_iff.mp htext.symm).2
    exact absurd (List.append_eq_nil_iff.mp hempty).1 hword
  · rintro ⟨after, htext, -⟩
    exact absurd (List.append_eq_nil_iff.mp htext.symm).1 hword

theorem standsIn_cons {word : List Char} (hword : word ≠ []) (left : Option Char) (c : Char) (rest : List Char) :
    StandsIn word left (c :: rest) ↔ wordAt word left (c :: rest) = true ∨ StandsIn word (some c) rest := by
  rw [wordAt_iff hword]
  constructor
  · rintro ⟨before, after, htext, hleft, hright⟩
    cases before with
    | nil => exact .inl ⟨after, htext, hleft, hright⟩
    | cons d before =>
      obtain ⟨rfl, hrest⟩ := List.cons.inj htext
      refine .inr ⟨before, after, hrest, ?_, hright⟩
      rw [List.getLast?_cons] at hleft
      cases hlast : before.getLast? with
      | none =>
        rw [hlast] at hleft
        exact hleft
      | some e =>
        rw [hlast] at hleft
        exact hleft
  · rintro (⟨after, htext, hleft, hright⟩ | ⟨before, after, rfl, hleft, hright⟩)
    · exact ⟨[], after, htext, hleft, hright⟩
    · refine ⟨c :: before, after, rfl, ?_, hright⟩
      rw [List.getLast?_cons]
      cases hlast : before.getLast? with
      | none =>
        rw [hlast] at hleft
        exact hleft
      | some e =>
        rw [hlast] at hleft
        exact hleft

theorem containsWord_cons (words : List String) (left : Option Char) (c : Char) (rest : List Char) :
    containsWord words left (c :: rest) = true ↔
      (∃ word ∈ words, wordAt word.toList left (c :: rest) = true) ∨ containsWord words (some c) rest = true := by
  show (_ || _) = true ↔ _
  rw [Bool.or_eq_true, List.any_eq_true]

theorem containsWord_standsIn {words : List String} (hwords : ∀ word ∈ words, word.toList ≠ []) (left : Option Char)
    (text : List Char) :
    containsWord words left text = true ↔ ∃ word ∈ words, StandsIn word.toList left text := by
  induction text generalizing left with
  | nil =>
    show words.any _ = true ↔ _
    rw [List.any_eq_true]
    exact exists_congr fun word => and_congr_right fun hmem => (standsIn_nil (hwords word hmem) left).symm
  | cons c rest ih =>
    rw [containsWord_cons, ih, ← exists_or]
    refine exists_congr fun word => ?_
    rw [← and_or_left]
    exact and_congr_right fun hmem => (standsIn_cons (hwords word hmem) left c rest).symm

/-- **A pattern matches where one of its words stands in the text.** -/
theorem containsWord_iff {words : List String} (hwords : ∀ word ∈ words, word.toList ≠ []) (text : List Char) :
    containsWord words none text = true ↔ ∃ word ∈ words, Mentions text word := by
  rw [containsWord_standsIn hwords]
  refine exists_congr fun word => and_congr_right fun _ => exists_congr fun before => exists_congr fun after => ?_
  rw [Option.or_none]
  rfl

/-! ## denials -/

/-- the nouns that a denial may name -/
def supplyNouns : List String := ["light", "lights", "power", "electricity"]

/-- at this place of the text stands "no" with blanks and a noun behind it -/
structure Denies (text before : List Char) (blanks : ℕ) (noun : String) (after : List Char) : Prop where
  named : noun ∈ supplyNouns
  reads : text = before ++ ("no".toList ++ (List.replicate (blanks + 1) ' ' ++ (noun.toList ++ after)))
  starts : boundary before.getLast? (some 'n') = true
  ends : boundary noun.toList.getLast? after.head? = true

/-- no word for supply stands in the text but the noun of the denial -/
def NoOther (text before : List Char) (blanks : ℕ) (noun : String) : Prop :=
  ∀ word ∈ upWords, ∀ before' after', text = before' ++ (word.toList ++ after') →
    Stands word.toList before' after' →
    word = noun ∧ before' = before ++ ("no".toList ++ List.replicate (blanks + 1) ' ')

section
variable {text before after : List Char} {blanks : ℕ} {noun : String}

theorem supplyNouns_ends : ∀ word ∈ supplyNouns, ∃ c cs, word.toList = c :: cs ∧ isWordChar c = true := by
  intro word h
  simp only [supplyNouns, List.mem_cons, List.not_mem_nil, or_false] at h
  rcases h with rfl | rfl | rfl | rfl <;> exact ⟨_, _, rfl, rfl⟩

/-- the noun of a denial is a word, as a blank is before it -/
theorem Denies.mentions (h : Denies text before blanks noun after) : Mentions text noun := by
  obtain ⟨c, cs, hnoun, hc⟩ := supplyNouns_ends noun h.named
  refine ⟨before ++ ("no".toList ++ List.replicate (blanks + 1) ' '), after, ?_, ?_, h.ends⟩
  · rw [h.reads, List.append_assoc, List.append_assoc]
  · rw [List.replicate_succ', ← List.append_assoc, ← List.append_assoc, List.getLast?_concat, hnoun]
    unfold boundary
    rw [List.head?_cons, Option.any_some, Option.any_some, hc]
    rfl

/-- the pattern for supply matches iff the noun is a word for supply by itself -/
theorem mentions_up_iff (h : Denies text before blanks noun after) (hother : NoOther text before blanks noun) :
    (∃ word ∈ upWords, Mentions text word) ↔ noun = "light" ∨ noun = "lights" := by
  constructor
  · rintro ⟨word, hword, before', after', htext, hstands⟩
    obtain ⟨rfl, -⟩ := hother word hword before' after' htext hstands
    have hnoun := h.named
    simp only [supplyNouns, List.mem_cons, List.not_mem_nil, or_false] at hnoun
    rcases hnoun with rfl | rfl | rfl | rfl
    · exact .inl rfl
    · exact .inr rfl
    · exact absurd hword (by decide)
    · exact absurd hword (by decide)
  · rintro (rfl | rfl)
    · exact ⟨"light", by decide, h.mentions⟩
    · exact ⟨"lights", by decide, h.mentions⟩

variable [JsText.Runtime]

theorem inferStatusFromMessage_denial {message : String}
    (h : Denies (JsText.toLowerCase message).toList before blanks noun after)
    (hother : NoOther (JsText.toLowerCase message).toList before blanks noun) :
    inferStatusFromMessage message ≠ .gridUp ↔ (noun = "power" ∨ noun = "electricity") ∨
      ∃ word ∈ downWords, Mentions (JsText.toLowerCase message).toList word := by
  have hup := mentions_up_iff h hother
  have hnoun := h.named
  simp only [supplyNouns, List.mem_cons, List.not_mem_nil, or_false] at hnoun
  unfold inferStatusFromMessage
  dsimp only
  rw [← containsWord_iff (by decide)] at hup ⊢
  by_cases hdown : containsWord downWords none (JsText.toLowerCase message).toList = true
  · rw [if_pos hdown]
    exact ⟨fun _ => .inr hdown, fun _ => by decide⟩
  · rw [if_neg hdown, or_iff_left hdown]
    by_cases hlight : noun = "light" ∨ noun = "lights"
    · rw [if_pos (hup.mpr hlight)]
      refine iff_of_false (fun h => h rfl) ?_
      rcases hlight with rfl | rfl <;> decide
    · rw [if_neg fun hmatch => hlight (hup.mp hmatch)]
      refine iff_of_true (by decide) ?_
      rcases hnoun with h | h | h | h
      · exact absurd (.inl h) hlight
      · exact absurd (.inr h) hlight
      · exact .inl h
      · exact .inr h

/-! ## what is stored -/

theorem fresh_webhook_status (s : Store) (input : WhatsAppWebhookRequest) (draw : Draw) :
    (fresh s (.webhook input, draw)).status = input.status.getD (inferStatusFromMessage input.text) := by
  cases s with
  | _ => rfl

/-- **A message that denies supply, and has no other word for it, is stored as an outage or as unknown iff its noun is
power or electricity, or a word for an outage stands in it.** -/
theorem denial_iff {s : Store} {input : WhatsAppWebhookRequest} {draw : Draw} {e : EvidenceEvent}
    (hstatus : input.status = none) (hstores : Stores s (.webhook input, draw) e)
    (h : Denies (JsText.toLowerCase input.text).toList before blanks noun after)
    (hother : NoOther (JsText.toLowerCase input.text).toList before blanks noun) :
    (e.status = .gridDown ∨ e.status = .unknown) ↔ (noun = "power" ∨ noun = "electricity") ∨
      ∃ word ∈ downWords, Mentions (JsText.toLowerCase input.text).toList word := by
  have hkind : (e.status = .gridDown ∨ e.status = .unknown) ↔ e.status ≠ .gridUp := by
    cases e.status <;> decide
  rw [hkind, hstores.eq_fresh.2, fresh_webhook_status, hstatus]
  exact inferStatusFromMessage_denial h hother

end

/-! ## two messages -/

/-- the places of a text, one by one -/
theorem noOther_of_places {text before : List Char} {blanks : ℕ} {noun : String}
    (h : ((List.range (text.length + 1)).all fun i => upWords.all fun word =>
      !wordAt word.toList (text.take i).getLast? (text.drop i) ||
        word = noun && text.take i = before ++ ("no".toList ++ List.replicate (blanks + 1) ' ')) = true) :
    NoOther text before blanks noun := by
  intro word hword before' after' htext hstands
  have hlength : before'.length < text.length + 1 := by
    rw [htext, List.length_append]
    omega
  have hplace := List.all_eq_true.mp (List.all_eq_true.mp h before'.length (List.mem_range.mpr hlength)) word hword
  have hne : word.toList ≠ [] := (show ∀ word ∈ upWords, word.toList ≠ [] by decide) word hword
  have hmatch : wordAt word.toList (text.take before'.length).getLast? (text.drop before'.length) = true := by
    rw [htext, List.take_left, List.drop_left]
    exact (wordAt_iff hne).mpr ⟨after', rfl, hstands⟩
  rw [hmatch, Bool.not_true, Bool.false_or, Bool.and_eq_true, decide_eq_true_eq, decide_eq_true_eq] at hplace
  rw [htext, List.take_left] at hplace
  exact hplace

def denialMessage (text : String) : WhatsAppWebhookRequest :=
  ⟨.whatsappCloud, "wamid-demo-1", "+2348012345678", "0x1111111111111111111111111111111111111111", sampleZone,
    some sampleTime, text, none⟩

def denialDraw : Draw := ⟨"e1", "p1", "c1", sampleTime, fun _ => 0⟩

theorem stores_sample (text : String) : letI := JsText.asciiRuntime
    Stores (.empty .memory) (.webhook (denialMessage text), denialDraw)
      (fresh (.empty .memory) (.webhook (denialMessage text), denialDraw)) := by
  let _ := JsText.asciiRuntime
  have hnew : (Store.empty .memory).find? (Request.webhook (denialMessage text)).idempotencyKey = none := rfl
  exact ⟨rfl, ((ingest_new hnew).1 _).trans (if_pos rfl)⟩

theorem denial_iff_sample : letI := JsText.asciiRuntime
    (fresh (.empty .memory) (.webhook (denialMessage "Still NO light here"), denialDraw)).status = .gridDown ∨
      (fresh (.empty .memory) (.webhook (denialMessage "Still NO light here"), denialDraw)).status = .unknown := by
  let _ := JsText.asciiRuntime
  have hdenies : Denies (JsText.toLowerCase "Still NO light here").toList "still ".toList 0 "light" " here".toList :=
    ⟨by decide, by decide +kernel, by decide +kernel, by decide +kernel⟩
  have hother : NoOther (JsText.toLowerCase "Still NO light here").toList "still ".toList 0 "light" :=
    noOther_of_places (by decide +kernel)
  have hdown : Mentions (JsText.toLowerCase "Still NO light here").toList "no light" :=
    ⟨"still ".toList, " here".toList, by decide +kernel, by decide +kernel, by decide +kernel⟩
  exact (denial_iff rfl (stores_sample "Still NO light here") hdenies hother).mpr
    (.inr ⟨"no light", by decide, hdown⟩)

/-- a plural, which is only a word for supply -/
theorem no_lights : letI := JsText.asciiRuntime
    ∃ e, Stores (.empty .memory) (.webhook (denialMessage "No lights"), denialDraw) e ∧
      Denies (JsText.toLowerCase "No lights").toList [] 0 "lights" [] ∧
      NoOther (JsText.toLowerCase "No lights").toList [] 0 "lights" ∧ e.status = .gridUp := by
  let _ := JsText.asciiRuntime
  refine ⟨_, stores_sample "No lights", ⟨by decide, by decide +kernel, by decide +kernel, by decide +kernel⟩,
    noOther_of_places (by decide +kernel), ?_⟩
  rw [fresh_webhook_status]
  decide +kernel

end Ingestion
