import GridProof.Lib.NumberText
import GridProof.Lib.PrefixCode
import GridProof.Pipeline.Scoring

/-!
# The evidence hash binds

The text that `epochScoreForApprovedCandidates` hashes, on all the strings and all the finite numbers of
JavaScript.

* `CodePoint`          a string may hold surrogates that stand alone; `JSON.stringify` escapes them;
* `hashedText`         the text, over any numbers that can be printed;
* `hashedText_plain`   on strings of characters and decimal fractions it is `evidenceText`;
* `hashedText_inj`     equal texts come from the same zone, epoch start and votes;
* `hash_binds`         the same for finite doubles, and with no collision equal hashes have equal uptimes.
-/

namespace Pipeline

open PrefixCode

/-! ## strings -/

inductive CodePoint where
  | char (c : Char)
  | surrogate (n : Fin 0x800)
deriving DecidableEq

abbrev JsString := List CodePoint

/-- a string that has no lone surrogate -/
def plain (s : String) : JsString := s.toList.map .char

def CodePoint.jsonEscape : CodePoint → List Char
  | .char c => Pipeline.jsonEscape c
  | .surrogate n =>
    ['\\', 'u', 'd', Sha256.hexDigit (8 + n / 256), Sha256.hexDigit (n / 16 % 16), Sha256.hexDigit (n % 16)]

def quoted (s : JsString) : List Char := '"' :: (s.flatMap CodePoint.jsonEscape ++ ['"'])

def array {α : Type*} (json : α → List Char) (items : List α) : List Char :=
  '[' :: (List.intercalate [','] (items.map json) ++ [']'])

/-! ## the text -/

/-- what is hashed of a candidate, its confidence a number of `ν` -/
@[ext]
structure ApprovedCandidate (ν : Type*) where
  id : JsString
  status : CandidateStatus
  confidence : ν
  evidenceEventIds : List JsString

section
variable {ν : Type*} (number : ν → List Char)

def ApprovedCandidate.json (item : ApprovedCandidate ν) : List Char :=
  "\x7b\"id\":".toList ++ quoted item.id ++ ",\"status\":".toList ++ quoted (plain item.status.text) ++
    ",\"confidence\":".toList ++ number item.confidence ++ ",\"evidenceEventIds\":".toList ++
    array quoted item.evidenceEventIds ++ "\x7d".toList

/-- `JSON.stringify({ zoneId, epochStart, approvedCandidates })` -/
def hashedText (zoneId epochStart : JsString) (approvedCandidates : List (ApprovedCandidate ν)) : String :=
  String.ofList ("\x7b\"zoneId\":".toList ++ quoted zoneId ++ ",\"epochStart\":".toList ++
    quoted epochStart ++ ",\"approvedCandidates\":".toList ++
    array (ApprovedCandidate.json number) approvedCandidates ++ "\x7d".toList)

end

/-- a vote of the model: its strings have no lone surrogate -/
def Vote.approved (v : Vote) : ApprovedCandidate ℚ :=
  ⟨plain v.id, v.status, v.confidence, v.evidenceEventIds.map plain⟩

theorem quoted_plain (s : String) : quoted (plain s) = (jsonString s).toList := by
  unfold quoted plain jsonString
  rw [List.flatMap_map]
  simp only [String.toList_append, String.toList_ofList]
  rfl

theorem array_toList {α : Type*} {json : α → List Char} {text : α → String}
    (h : ∀ a, json a = (text a).toList) (items : List α) :
    array json items = (jsonArray (items.map text)).toList := by
  unfold array jsonArray
  rw [String.toList_append, String.toList_append, String.toList_intercalate, List.map_map]
  have hmap : items.map json = items.map (String.toList ∘ text) := List.map_congr_left fun a _ => h a
  rw [hmap]
  rfl

theorem array_map {α β : Type*} (json : β → List Char) (f : α → β) (items : List α) :
    array json (items.map f) = array (fun a => json (f a)) items := by
  unfold array
  rw [List.map_map]
  rfl

theorem Vote.approved_json (v : Vote) :
    v.approved.json (fun q => (numberText q).toList) = v.json.toList := by
  have hids : array quoted (v.evidenceEventIds.map plain) =
      (jsonArray (v.evidenceEventIds.map jsonString)).toList := by
    rw [array_map, array_toList fun s => quoted_plain s]
  unfold ApprovedCandidate.json Vote.json
  show _ ++ quoted (plain v.id) ++ _ ++ _ ++ _ ++ _ ++ _ ++
    array quoted (v.evidenceEventIds.map plain) ++ _ = _
  rw [quoted_plain, quoted_plain, hids]
  simp only [String.toList_append]
  rfl

/-- the text of the model is the text on strings of characters -/
theorem hashedText_plain (zoneId : String) (epochStart : EpochStart) (votes : List Vote) :
    hashedText (fun q => (numberText q).toList) (plain zoneId) (plain epochStart.text)
      (votes.map Vote.approved) = evidenceText zoneId epochStart votes := by
  have hvotes : array (ApprovedCandidate.json fun q => (numberText q).toList) (votes.map Vote.approved) =
      (jsonArray (votes.map Vote.json)).toList := by
    rw [array_map, array_toList Vote.approved_json]
  apply String.toList_injective
  unfold hashedText evidenceText
  rw [quoted_plain, quoted_plain, hvotes, String.toList_ofList]
  simp only [String.toList_append]

/-! ## reading a string -/

def unhex (c : Char) : ℕ := "0123456789abcdef".toList.idxOf c

theorem unhex_hexDigit {n : ℕ} (h : n < 16) : unhex (Sha256.hexDigit n) = n := by
  have hall : ∀ n : Fin 16, unhex (Sha256.hexDigit n) = n := by decide
  exact hall ⟨n, h⟩

/-- the character that a letter behind a backslash stands for -/
def unescape (c : Char) : Char :=
  if c = 'n' then '\n'
  else if c = 'r' then '\r'
  else if c = 't' then '\t'
  else if c = 'b' then Char.ofNat 8
  else if c = 'f' then Char.ofNat 12
  else c

/-- the first code point of the body of a string, and what follows it -/
def readCodePoint : List Char → Option (CodePoint × List Char)
  | '\\' :: 'u' :: 'd' :: a :: b :: c :: x =>
    some (.surrogate (Fin.ofNat 0x800 ((unhex a - 8) * 256 + unhex b * 16 + unhex c)), x)
  | '\\' :: 'u' :: '0' :: '0' :: a :: b :: x => some (.char (Char.ofNat (unhex a * 16 + unhex b)), x)
  | '\\' :: c :: x => some (.char (unescape c), x)
  | c :: x => some (.char c, x)
  | [] => none

theorem readCodePoint_other {c : Char} (h : c ≠ '\\') (x : List Char) :
    readCodePoint (c :: x) = some (.char c, x) := by
  unfold readCodePoint
  split
  · rename_i he
    exact absurd (List.cons.inj he).1 h
  · rename_i he
    exact absurd (List.cons.inj he).1 h
  · rename_i he
    exact absurd (List.cons.inj he).1 h
  · rename_i he
    rw [(List.cons.inj he).1, (List.cons.inj he).2]
  · rename_i he
    cases he

theorem ofNat_of_toNat {c : Char} {n : ℕ} (h : c.toNat = n) : Char.ofNat n = c := by
  rw [← h, Char.ofNat_toNat]

theorem readCodePoint_char (c : Char) (x : List Char) :
    readCodePoint (jsonEscape c ++ x) = some (.char c, x) := by
  unfold jsonEscape
  split_ifs with hquote hslash hn hr ht hb hf hlow
  · rw [hquote]; rfl
  · rw [hslash]; rfl
  · rw [hn]; rfl
  · rw [hr]; rfl
  · rw [ht]; rfl
  · show some (CodePoint.char (Char.ofNat 8), x) = _
    rw [ofNat_of_toNat hb]
  · show some (CodePoint.char (Char.ofNat 12), x) = _
    rw [ofNat_of_toNat hf]
  · show some (CodePoint.char (Char.ofNat (unhex (Sha256.hexDigit (c.toNat / 16)) * 16 +
      unhex (Sha256.hexDigit (c.toNat % 16)))), x) = _
    rw [unhex_hexDigit (by omega), unhex_hexDigit (by omega),
      ofNat_of_toNat (c := c) (by omega)]
  · exact readCodePoint_other hslash x

/-- an escape is read back, whatever follows it -/
theorem readCodePoint_escape (c : CodePoint) (x : List Char) :
    readCodePoint (c.jsonEscape ++ x) = some (c, x) := by
  cases c with
  | char c => exact readCodePoint_char c x
  | surrogate n =>
    have hn := n.isLt
    show some (CodePoint.surrogate (Fin.ofNat 0x800 ((unhex (Sha256.hexDigit (8 + n / 256)) - 8) * 256 +
      unhex (Sha256.hexDigit (n / 16 % 16)) * 16 + unhex (Sha256.hexDigit (n % 16)))), x) = _
    rw [unhex_hexDigit (by omega), unhex_hexDigit (by omega), unhex_hexDigit (by omega)]
    have hvalue : (8 + n.val / 256 - 8) * 256 + n.val / 16 % 16 * 16 + n.val % 16 = n.val := by omega
    rw [hvalue, Fin.ofNat_val_eq_self]

/-! ## the text is unambiguous -/

theorem readable_escape : Readable Anything CodePoint.jsonEscape := by
  intro a b x y _ _ he
  have hread := readCodePoint_escape a x
  rw [he, readCodePoint_escape b y] at hread
  have hpair := Option.some.inj hread
  exact ⟨(congrArg Prod.fst hpair).symm, (congrArg Prod.snd hpair).symm⟩

/-- no escape starts with a quotation mark -/
theorem escape_avoids : Avoids CodePoint.jsonEscape '"' := by
  intro c
  cases c with
  | surrogate n => exact ⟨'\\', _, rfl, by decide⟩
  | char c =>
    show ∃ d w, Pipeline.jsonEscape c = d :: w ∧ d ≠ '"'
    unfold Pipeline.jsonEscape
    split_ifs with hquote
    all_goals first
      | exact ⟨'\\', _, rfl, by decide⟩
      | exact ⟨c, [], rfl, hquote⟩

theorem readable_quoted : Readable Anything quoted :=
  (readable_escape.closed escape_avoids).lit ['"']

theorem readable_array {α : Type*} {json : α → List Char}
    (hp : Readable (StartsIn fun c => c = ',' ∨ c = ']') json) (havoid : Avoids json ']') :
    Readable Anything (array json) := by
  have harray : array json = fun items => ['['] ++ PrefixCode.list json ',' ']' items := by
    funext items
    rw [PrefixCode.list_eq]
    rfl
  rw [harray]
  exact (hp.list (by decide) havoid).lit ['[']

theorem plain_injective : Function.Injective plain := by
  intro s t h
  have hchar : Function.Injective CodePoint.char := fun _ _ he => CodePoint.char.inj he
  exact String.toList_injective (hchar.list_map h)

theorem CandidateStatus.text_injective : Function.Injective CandidateStatus.text := by
  intro a b h
  cases a with
  | outage =>
    cases b with
    | outage => rfl
    | restored => exact absurd h (by decide)
  | restored =>
    cases b with
    | outage => exact absurd h (by decide)
    | restored => rfl

section
variable {ν : Type*} {number : ν → List Char}

theorem ApprovedCandidate.readable_json (hnumber : Readable (StartsIn fun c => c = ',') number) :
    Readable Anything (ApprovedCandidate.json number) := by
  have hids := ((readable_array readable_quoted.of_anything fun _ => ⟨'"', _, rfl, by decide⟩).before
    "\x7d".toList fun _ _ => trivial : Readable Anything _).lit ",\"evidenceEventIds\":".toList
  have hconfidence := (hnumber.pair hids fun _ _ _ => rfl).lit ",\"confidence\":".toList
  have hstatus := ((readable_quoted.comp (plain_injective.comp CandidateStatus.text_injective)).pair
    hconfidence fun _ _ _ => trivial).lit ",\"status\":".toList
  have hall := (readable_quoted.pair hstatus fun _ _ _ => trivial).lit "\x7b\"id\":".toList
  have hfields : Function.Injective fun item : ApprovedCandidate ν =>
      (item.id, item.status, item.confidence, item.evidenceEventIds) := by
    intro a b h
    cases a
    cases b
    simpa using h
  intro a b x y _ _ he
  refine hall.comp hfields a b x y trivial trivial ?_
  unfold ApprovedCandidate.json at he
  simpa only [List.append_assoc, Function.comp_apply] using he

theorem ApprovedCandidate.json_avoids : Avoids (ApprovedCandidate.json number) ']' := by
  intro item
  unfold ApprovedCandidate.json
  simp only [List.append_assoc]
  exact ⟨'\x7b', _, rfl, by decide⟩

/-- **Equal texts come from equal zones, epoch starts and lists of votes.** -/
theorem hashedText_inj (hnumber : Readable (StartsIn fun c => c = ',') number)
    {zoneId zoneId' epochStart epochStart' : JsString} {votes votes' : List (ApprovedCandidate ν)}
    (h : hashedText number zoneId epochStart votes = hashedText number zoneId' epochStart' votes') :
    zoneId = zoneId' ∧ epochStart = epochStart' ∧ votes = votes' := by
  have hvotes := ((readable_array (ApprovedCandidate.readable_json hnumber).of_anything
    ApprovedCandidate.json_avoids).before "\x7d".toList fun _ _ => trivial : Readable Anything _).lit
    ",\"approvedCandidates\":".toList
  have hepoch := (readable_quoted.pair hvotes fun _ _ _ => trivial).lit ",\"epochStart\":".toList
  have hall := (readable_quoted.pair hepoch fun _ _ _ => trivial).lit "\x7b\"zoneId\":".toList
  have htext := String.ofList_injective h
  have hsame : (zoneId, epochStart, votes) = (zoneId', epochStart', votes') :=
    hall.injective trivial (by simpa only [List.append_assoc] using htext)
  simpa using hsame

end

/-! ## the hash -/

section
variable {ν : Type*}

/-- `uptimeBps` of the score -/
def approvedUptimeBps (approvedCandidates : List (ApprovedCandidate ν)) : Int :=
  let upVotes := (approvedCandidates.filter fun item => item.status = .restored).length
  let totalVotes := approvedCandidates.length
  if totalVotes = 0 then 0 else mathRound ((upVotes : ℚ) / totalVotes * 10000)

/-- `evidenceHash` of the score -/
def approvedHash (number : ν → List Char) (zoneId epochStart : JsString)
    (approvedCandidates : List (ApprovedCandidate ν)) : String :=
  "0x" ++ sha256Hex (hashedText number zoneId epochStart approvedCandidates)

end

theorem approvedUptimeBps_votes (votes : List Vote) :
    approvedUptimeBps (votes.map Vote.approved) = uptimeBps votes := by
  unfold approvedUptimeBps uptimeBps
  rw [List.filter_map, List.length_map, List.length_map]
  rfl

theorem approvedHash_votes (zoneId : String) (epochStart : EpochStart) (votes : List Vote) :
    approvedHash (fun q => (numberText q).toList) (plain zoneId) (plain epochStart.text)
      (votes.map Vote.approved) = evidenceHash zoneId epochStart votes := by
  unfold approvedHash evidenceHash
  rw [hashedText_plain]

/-! ## the texts of the model -/

theorem toString_digit {n : ℕ} {c : Char} (hc : c ∈ (toString n).toList) : c.isDigit = true := by
  rw [Nat.toString_eq_ofList_toDigits, String.toList_ofList] at hc
  exact Nat.isDigit_of_mem_toDigits (by decide) (by decide) hc

theorem padded_digit {width n : ℕ} {c : Char} (hc : c ∈ (Calendar.padded width n).toList) :
    c.isDigit = true := by
  unfold Calendar.padded at hc
  rw [String.toList_ofList] at hc
  rcases List.mem_append.mp hc with hc | hc
  · rw [List.eq_of_mem_replicate hc]
    rfl
  · exact toString_digit hc

/-- the symbols of a printed number -/
def NumberChar (c : Char) : Prop := c.isDigit = true ∨ c = '.' ∨ c = '-' ∨ c = 'e'

instance (c : Char) : Decidable (NumberChar c) := inferInstanceAs (Decidable (_ ∨ _ ∨ _ ∨ _))

theorem numberChars {l : List Char} (h : (l.all fun c => decide (NumberChar c)) = true) :
    ∀ c ∈ l, NumberChar c :=
  fun c hc => of_decide_eq_true (List.all_eq_true.mp h c hc)

theorem sign_char (q : ℚ) : ∀ c ∈ (if q < 0 then "-" else "").toList, NumberChar c := by
  split
  · exact numberChars (by decide)
  · exact numberChars (by decide)

/-- the digits of a mantissa, with a point behind the first one -/
theorem mantissa_char (l : List Char) (hl : ∀ c ∈ l, c.isDigit = true) :
    ∀ c ∈ (if l.length = 1 then "" else "." ++ String.ofList (l.drop 1)).toList, NumberChar c := by
  split
  · exact numberChars (by decide)
  · intro c hc
    rw [String.toList_append, List.mem_append] at hc
    rcases hc with hc | hc
    · have hpoint : ∀ c ∈ ".".toList, NumberChar c := numberChars (by decide)
      exact hpoint c hc
    · rw [String.toList_ofList] at hc
      exact .inl (hl c (List.mem_of_mem_drop hc))

theorem numberText_char {q : ℚ} {c : Char} (hc : c ∈ (numberText q).toList) : NumberChar c := by
  have hpoint : ∀ c ∈ ".".toList, NumberChar c := numberChars (by decide)
  have hexponent : ∀ c ∈ "e-".toList, NumberChar c := numberChars (by decide)
  unfold numberText at hc
  dsimp only at hc
  split at hc
  · rw [String.toList_append, List.mem_append] at hc
    exact hc.elim (sign_char q c) fun hc => .inl (toString_digit hc)
  · split at hc
    · simp only [String.toList_append, List.mem_append] at hc
      rcases hc with (((hc | hc) | hc) | hc) | hc
      · exact sign_char q c hc
      · rw [String.toList_ofList] at hc
        exact .inl (toString_digit (List.mem_of_mem_take hc))
      · exact mantissa_char _ (fun c hc => toString_digit hc) c hc
      · exact hexponent c hc
      · exact .inl (toString_digit hc)
    · simp only [String.toList_append, List.mem_append] at hc
      rcases hc with ((hc | hc) | hc) | hc
      · exact sign_char q c hc
      · exact .inl (toString_digit hc)
      · exact hpoint c hc
      · exact .inl (padded_digit hc)

/-- a text without a comma -/
abbrev Uncomma := {w : List Char // ∀ c ∈ w, c ≠ ','}

def confidenceText (q : ℚ) : Uncomma :=
  ⟨(numberText q).toList, fun c hc => by
    rintro rfl
    exact absurd (numberText_char hc) (by decide)⟩

theorem readable_uncomma : Readable (StartsIn fun c => c = ',') (Subtype.val : Uncomma → List Char) :=
  readable_of_span Subtype.val_injective fun a c hc => a.2 c hc

/-- a vote with the text of its confidence -/
def Vote.spelled (v : Vote) : ApprovedCandidate Uncomma :=
  ⟨plain v.id, v.status, confidenceText v.confidence, v.evidenceEventIds.map plain⟩

theorem evidenceText_spelled (zoneId : String) (epochStart : EpochStart) (votes : List Vote) :
    evidenceText zoneId epochStart votes =
      hashedText Subtype.val (plain zoneId) (plain epochStart.text) (votes.map Vote.spelled) := by
  rw [← hashedText_plain]
  unfold hashedText
  rw [array_map, array_map]
  rfl

/-- the text of the model tells the candidates' ids and their order, however the confidences are written -/
theorem evidenceText_ids {zoneId zoneId' : String} {epochStart epochStart' : EpochStart}
    {votes votes' : List Vote}
    (h : evidenceText zoneId epochStart votes = evidenceText zoneId' epochStart' votes') :
    votes.map Vote.id = votes'.map Vote.id := by
  rw [evidenceText_spelled, evidenceText_spelled] at h
  have hvotes := congrArg (List.map ApprovedCandidate.id) (hashedText_inj readable_uncomma h).2.2
  rw [List.map_map, List.map_map] at hvotes
  have hids : ∀ votes : List Vote, votes.map (ApprovedCandidate.id ∘ Vote.spelled) =
      (votes.map Vote.id).map plain := by
    intro votes
    rw [List.map_map]
    rfl
  rw [hids, hids] at hvotes
  exact plain_injective.list_map hvotes

/-- the text of the model tells the zone -/
theorem evidenceText_zone {zoneId zoneId' : String} {epochStart epochStart' : EpochStart} {votes votes' : List Vote}
    (h : evidenceText zoneId epochStart votes = evidenceText zoneId' epochStart' votes') : zoneId = zoneId' := by
  rw [evidenceText_spelled, evidenceText_spelled] at h
  exact plain_injective (hashedText_inj readable_uncomma h).1

/-! ## binding -/

/-- SHA-256 does not send the two texts to one hash unless they are one text -/
def NoCollision (t t' : String) : Prop := sha256Hex t = sha256Hex t' → t = t'

/-- the doubles' texts never use a comma -/
theorem readable_finite : Readable (StartsIn fun c => c = ',') NumberText.Finite.text := by
  refine readable_of_span NumberText.Finite.text_injective fun a c hc => ?_
  rintro rfl
  rcases NumberText.Finite.text_chars hc with hdigit | hmark
  · cases hdigit
  · exact absurd hmark (by decide)

/-- **The evidence hash binds the votes**: equal texts come from the same zone, epoch start and ordered
list of votes, and where SHA-256 has no collision equal hashes come with equal uptimes. -/
theorem hash_binds (zoneId zoneId' epochStart epochStart' : JsString)
    (votes votes' : List (ApprovedCandidate NumberText.Finite)) :
    (hashedText NumberText.Finite.text zoneId epochStart votes =
        hashedText NumberText.Finite.text zoneId' epochStart' votes' →
      zoneId = zoneId' ∧ epochStart = epochStart' ∧ votes = votes') ∧
    (NoCollision (hashedText NumberText.Finite.text zoneId epochStart votes)
        (hashedText NumberText.Finite.text zoneId' epochStart' votes') →
      approvedHash NumberText.Finite.text zoneId epochStart votes =
        approvedHash NumberText.Finite.text zoneId' epochStart' votes' →
      approvedUptimeBps votes = approvedUptimeBps votes') := by
  constructor
  · exact hashedText_inj readable_finite
  · intro hcollision hhash
    have hsha := String.append_right_inj _ |>.mp hhash
    obtain ⟨-, -, hvotes⟩ := hashedText_inj readable_finite (hcollision hsha)
    rw [hvotes]

/-- a vote whose id needs escapes and whose second piece of evidence is a lone surrogate -/
def quotedVote : ApprovedCandidate NumberText.Finite :=
  ⟨plain "a\"b\\", .restored, .zero, [plain "e\n", [.surrogate 5]]⟩

theorem quotedVote_bound :
    (plain "z" = plain "z" ∧ plain "t" = plain "t" ∧ [quotedVote] = [quotedVote]) ∧
      approvedUptimeBps [quotedVote] = approvedUptimeBps [quotedVote] :=
  ⟨(hash_binds (plain "z") (plain "z") (plain "t") (plain "t") [quotedVote] [quotedVote]).1 rfl,
    (hash_binds (plain "z") (plain "z") (plain "t") (plain "t") [quotedVote] [quotedVote]).2
      (fun _ => rfl) rfl⟩

example : hashedText NumberText.Finite.text (plain "z") (plain "t") [quotedVote] =
    "\x7b\"zoneId\":\"z\",\"epochStart\":\"t\",\"approvedCandidates\":[\x7b\"id\":\"a\\\"b\\\\\"," ++
      "\"status\":\"restored\",\"confidence\":0,\"evidenceEventIds\":[\"e\\n\",\"\\ud805\"]\x7d]\x7d" := by
  decide +kernel

end Pipeline
