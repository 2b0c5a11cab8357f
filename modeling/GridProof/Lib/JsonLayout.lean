import GridProof.Lib.JsonText

/-!
# JSON with white space

Objects of texts and objects, written by hand with white space before names, behind colons and before braces.

* `Layout.chars`   the text of a document with its white space;
* `parse_layout`   it is read as the document without it.
-/

namespace Json

/-! ## white space -/

def Blank (ws : List Char) : Prop := ∀ c ∈ ws, isSpace c = true

theorem skip_blank {ws : List Char} (h : Blank ws) (rest : List Char) : skip (ws ++ rest) = skip rest :=
  List.dropWhile_append_of_pos h

theorem skip_blank_cons {ws : List Char} (h : Blank ws) {c : Char} (hc : isSpace c = false) (rest : List Char) :
    skip (ws ++ c :: rest) = c :: rest := by
  rw [skip_blank h]
  exact List.dropWhile_cons_of_neg (by rw [hc]; exact Bool.false_ne_true)

theorem readValue_blank {ws : List Char} (h : Blank ws) (fuel : ℕ) (rest : List Char) :
    readValue (fuel + 1) (ws ++ rest) = readValue (fuel + 1) rest := by
  unfold readValue
  rw [skip_blank h]

theorem readMembers_blank {ws : List Char} (h : Blank ws) (fuel : ℕ) (rest : List Char) :
    readMembers (fuel + 1) (ws ++ rest) = readMembers (fuel + 1) rest := by
  unfold readMembers
  rw [skip_blank h]

theorem readMembers_closing {name t u after rest : List Char} {v : Value} {fuel : ℕ}
    (hname : readString t = some (name, ':' :: u)) (hvalue : readValue fuel u = some (v, after))
    (hafter : skip after = '}' :: rest) :
    readMembers (fuel + 1) ('"' :: t) = some ([(String.ofList name, v)], rest) := by
  unfold readMembers
  show (readString t >>= _) = _
  rw [hname]
  show (readValue fuel u >>= _) = _
  rw [hvalue, Option.bind_eq_bind, Option.bind_some]
  dsimp only
  rw [hafter]
  rfl

/-- a text without escapes -/
theorem quote_plain {s : String} (h : Plain s) (rest : List Char) :
    quote s ++ rest = '"' :: (s.toList ++ '"' :: rest) := by
  have hchar : ∀ c ∈ s.toList, quoteChar c = [c] := fun c hc => by
    obtain ⟨hquote, hslash, hlow⟩ := h c hc
    have hnone : escapeLetter c = none := by
      unfold escapeLetter
      split
      · exact absurd rfl hquote
      · exact absurd rfl hslash
      · exact absurd hlow (by decide)
      · exact absurd hlow (by decide)
      · exact absurd hlow (by decide)
      · exact absurd hlow (by decide)
      · exact absurd hlow (by decide)
      · rfl
    unfold quoteChar
    rw [hnone]
    exact if_neg (Nat.not_lt.mpr hlow)
  rw [quote_append, List.flatMap_congr hchar, List.flatMap_singleton']

/-! ## documents -/

/-- a member is the white space before its name, the name, the white space behind the colon, and the value -/
inductive Layout where
  | text (s : String)
  | object (members : List (List Char × String × List Char × Layout)) (closing : List Char)

abbrev Layout.Member := List Char × String × List Char × Layout

mutual

def Layout.value : Layout → Value
  | .text s => .string s
  | .object members _ => .object (Layout.values members)

def Layout.values : List Layout.Member → List (String × Value)
  | [] => []
  | (_, name, _, v) :: members => (name, v.value) :: Layout.values members

end

mutual

def Layout.chars : Layout → List Char
  | .text s => quote s
  | .object members closing => '{' :: Layout.memberChars closing members

/-- the members, up to the brace -/
def Layout.memberChars (closing : List Char) : List Layout.Member → List Char
  | [] => closing ++ ['}']
  | [(before, name, gap, v)] => before ++ (quote name ++ ':' :: (gap ++ (v.chars ++ (closing ++ ['}']))))
  | (before, name, gap, v) :: m :: ms =>
    before ++ (quote name ++ ':' :: (gap ++ (v.chars ++ ',' :: Layout.memberChars closing (m :: ms))))

end

mutual

/-- what stands around is white space -/
def Layout.Spaced : Layout → Prop
  | .text _ => True
  | .object members closing => Blank closing ∧ Layout.MembersSpaced members

def Layout.MembersSpaced : List Layout.Member → Prop
  | [] => True
  | (before, _, gap, v) :: members => Blank before ∧ Blank gap ∧ v.Spaced ∧ Layout.MembersSpaced members

end

/-! ## reading -/

theorem length_pos (l : Layout) : 0 < l.chars.length := by
  cases l with
  | text s => exact Nat.succ_pos _
  | object members closing => exact Nat.succ_pos _

/-- the members start with white space and a quote -/
theorem memberChars_split (closing : List Char) {ms : List Layout.Member} (hne : ms ≠ [])
    (hms : Layout.MembersSpaced ms) : ∃ ws t, Blank ws ∧ Layout.memberChars closing ms = ws ++ '"' :: t := by
  match ms with
  | [] => exact absurd rfl hne
  | [(before, name, gap, v)] => exact ⟨before, _, hms.1, rfl⟩
  | (before, name, gap, v) :: m :: ms => exact ⟨before, _, hms.1, rfl⟩

theorem readValue_brace {cs t rest : List Char} {fuel : ℕ} (hskip : skip cs = '"' :: t)
    {members : List (String × Value)} (h : readMembers fuel ('"' :: t) = some (members, rest)) :
    readValue (fuel + 1) ('\x7b' :: cs) = some (.object members, rest) := by
  have hbrace : skip ('\x7b' :: cs) = '\x7b' :: cs := rfl
  conv_lhs => unfold readValue
  simp [hbrace, hskip, h]

theorem readValue_empty {cs rest : List Char} (fuel : ℕ) (hskip : skip cs = '}' :: rest) :
    readValue (fuel + 1) ('\x7b' :: cs) = some (.object [], rest) := by
  have hbrace : skip ('\x7b' :: cs) = '\x7b' :: cs := rfl
  conv_lhs => unfold readValue
  simp [hbrace, hskip]

theorem readValue_members {closing : List Char} {ms : List Layout.Member} {rest : List Char} {fuel : ℕ}
    (hclosing : Blank closing) (hms : Layout.MembersSpaced ms) (hfuel : (Layout.memberChars closing ms).length ≤ fuel)
    (h : ms ≠ [] → readMembers fuel (Layout.memberChars closing ms ++ rest) = some (Layout.values ms, rest)) :
    readValue (fuel + 1) ((Layout.object ms closing).chars ++ rest) =
      some ((Layout.object ms closing).value, rest) := by
  show readValue (fuel + 1) ('\x7b' :: (Layout.memberChars closing ms ++ rest)) =
    some (.object (Layout.values ms), rest)
  by_cases hne : ms = []
  · rw [hne]
    refine readValue_empty _ ?_
    show skip ((closing ++ ['}']) ++ rest) = _
    rw [List.append_assoc]
    exact skip_blank_cons hclosing rfl rest
  · obtain ⟨ws, t, hws, ht⟩ := memberChars_split closing hne hms
    have hread := h hne
    rw [ht, List.length_append, List.length_cons] at hfuel
    obtain ⟨k, rfl⟩ : ∃ k, fuel = k + 1 := ⟨fuel - 1, by omega⟩
    rw [ht, List.append_assoc] at hread ⊢
    rw [readMembers_blank hws] at hread
    exact readValue_brace (skip_blank_cons hws rfl _) hread

theorem member_append_rest (before gap tail rest : List Char) (name : String) :
    (before ++ (quote name ++ ':' :: (gap ++ tail))) ++ rest =
      before ++ ('"' :: (name.toList.flatMap quoteChar ++ '"' :: (':' :: (gap ++ (tail ++ rest))))) := by
  rw [List.append_assoc, List.append_assoc, quote_append, List.cons_append, List.append_assoc]

theorem length_member_blank (before gap : List Char) (name : String) (v : Layout) (tail : List Char) :
    v.chars.length + tail.length + 2 ≤ (before ++ (quote name ++ ':' :: (gap ++ (v.chars ++ tail)))).length := by
  have hquote : 0 < (quote name).length := Nat.succ_pos _
  simp only [List.length_append, List.length_cons]
  omega

mutual

theorem readValue_layout (l : Layout) (hl : l.Spaced) (rest : List Char) (fuel : ℕ) (hfuel : l.chars.length ≤ fuel) :
    readValue fuel (l.chars ++ rest) = some (l.value, rest) := by
  have hpos := length_pos l
  obtain ⟨k, rfl⟩ : ∃ k, fuel = k + 1 := ⟨fuel - 1, by omega⟩
  match l with
  | .text s => exact readValue_quote s rest k
  | .object members closing =>
    have hlength : (Layout.memberChars closing members).length ≤ k := Nat.le_of_succ_le_succ hfuel
    exact readValue_members hl.1 hl.2 hlength fun hne =>
      readMembers_layout closing members hl.1 hne hl.2 rest k hlength

theorem readMembers_layout (closing : List Char) (ms : List Layout.Member) (hclosing : Blank closing) (hne : ms ≠ [])
    (hms : Layout.MembersSpaced ms) (rest : List Char) (fuel : ℕ)
    (hfuel : (Layout.memberChars closing ms).length ≤ fuel) :
    readMembers fuel (Layout.memberChars closing ms ++ rest) = some (Layout.values ms, rest) := by
  match ms with
  | [] => exact absurd rfl hne
  | [(before, name, gap, v)] =>
    obtain ⟨hbefore, hgap, hv, -⟩ := hms
    have hlength := Nat.le_trans (length_member_blank before gap name v (closing ++ ['}'])) hfuel
    obtain ⟨k, rfl⟩ : ∃ k, fuel = k + 2 := ⟨fuel - 2, by omega⟩
    have hvalue := readValue_layout v hv (closing ++ '}' :: rest) (k + 1) (by omega)
    show readMembers (k + 2) ((before ++ (quote name ++ ':' :: (gap ++ (v.chars ++ (closing ++ ['}']))))) ++ rest) = _
    rw [member_append_rest, readMembers_blank hbefore]
    have hread : readValue (k + 1) (gap ++ ((v.chars ++ (closing ++ ['}'])) ++ rest)) =
        some (v.value, closing ++ '}' :: rest) := by
      rw [readValue_blank hgap, List.append_assoc, List.append_assoc]
      exact hvalue
    rw [readMembers_closing (readString_chars name.toList _) hread (skip_blank_cons hclosing rfl rest),
      String.ofList_toList]
    rfl
  | (before, name, gap, v) :: m :: ms =>
    obtain ⟨hbefore, hgap, hv, hms⟩ := hms
    have hlength := Nat.le_trans
      (length_member_blank before gap name v (',' :: Layout.memberChars closing (m :: ms))) hfuel
    rw [List.length_cons] at hlength
    obtain ⟨k, rfl⟩ : ∃ k, fuel = k + 2 := ⟨fuel - 2, by omega⟩
    have hvalue := readValue_layout v hv (',' :: (Layout.memberChars closing (m :: ms) ++ rest)) (k + 1) (by omega)
    have hrest := readMembers_layout closing (m :: ms) hclosing (List.cons_ne_nil m ms) hms rest (k + 1) (by omega)
    show readMembers (k + 2)
      ((before ++ (quote name ++ ':' :: (gap ++ (v.chars ++ ',' :: Layout.memberChars closing (m :: ms))))) ++ rest) = _
    rw [member_append_rest, readMembers_blank hbefore, readMembers_comma (readString_chars name.toList _), hrest,
      String.ofList_toList]
    · rfl
    · rw [readValue_blank hgap, List.append_assoc]
      exact hvalue

end

/-- **An object with white space is read as the one without it.** -/
theorem parse_layout {members : List Layout.Member} {closing : List Char}
    (h : (Layout.object members closing).Spaced) {behind : List Char} (hbehind : Blank behind) :
    parse (String.ofList ((Layout.object members closing).chars ++ behind)) =
      some (Layout.object members closing).value := by
  have hread := readValue_layout (.object members closing) h behind
    (2 * (String.ofList ((Layout.object members closing).chars ++ behind)).length + 2) (by
      rw [String.length_ofList, List.length_append]
      omega)
  have hend : skip behind = [] := by
    have hskip := skip_blank hbehind []
    rw [List.append_nil] at hskip
    exact hskip
  unfold parse
  rw [String.toList_ofList, hread]
  exact if_pos hend

end Json
