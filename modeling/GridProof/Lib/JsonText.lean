import GridProof.Lib.Json

/-!
# Writing JSON

Texts, whole numbers and objects of them, written as `JSON.stringify` writes them.

* `Doc.stringify`     the text of a document;
* `parse_stringify`   an object that was written is read as it was, whatever characters its texts have.
-/

namespace Json

inductive Doc where
  | text (s : String)
  | integer (n : ℤ)
  | object (members : List (String × Doc))

mutual

/-- what is read of it -/
def Doc.value : Doc → Value
  | .text s => .string s
  | .integer n => .number n
  | .object members => .object (Doc.values members)

def Doc.values : List (String × Doc) → List (String × Value)
  | [] => []
  | (name, v) :: members => (name, v.value) :: Doc.values members

end

/-! ## writing -/

def hexDigit (n : ℕ) : Char := "0123456789abcdef".toList.getD n '0'

/-- the letter of an escape of two characters -/
def escapeLetter : Char → Option Char
  | '"' => some '"'
  | '\\' => some '\\'
  | '\x08' => some 'b'
  | '\x0c' => some 'f'
  | '\n' => some 'n'
  | '\r' => some 'r'
  | '\t' => some 't'
  | _ => none

/-- a character inside quotes -/
def quoteChar (c : Char) : List Char :=
  match escapeLetter c with
  | some d => ['\\', d]
  | none =>
    if c.toNat < 32 then ['\\', 'u', '0', '0', hexDigit (c.toNat / 16), hexDigit (c.toNat % 16)] else [c]

def quote (s : String) : List Char := '"' :: (s.toList.flatMap quoteChar ++ ['"'])

def integerText (n : ℤ) : List Char :=
  if n < 0 then '-' :: NumberText.digits n.natAbs else NumberText.digits n.natAbs

mutual

def Doc.chars : Doc → List Char
  | .text s => quote s
  | .integer n => integerText n
  | .object members => '\x7b' :: Doc.memberChars members

/-- members, up to the brace -/
def Doc.memberChars : List (String × Doc) → List Char
  | [] => ['}']
  | [(name, v)] => quote name ++ ':' :: (v.chars ++ ['}'])
  | (name, v) :: m :: members => quote name ++ ':' :: (v.chars ++ ',' :: Doc.memberChars (m :: members))

end

def Doc.stringify (d : Doc) : String := String.ofList d.chars

example : (Doc.object [("a", .integer (-1)), ("b", .object [("c", .text "\n\"")])]).stringify =
    "\x7b\"a\":-1,\"b\":\x7b\"c\":\"\\n\\\"\"\x7d\x7d" := by decide +kernel

/-! ## reading what was written -/

theorem codeUnit_hexDigit : ∀ n : Fin 32, codeUnit '0' '0' (hexDigit (n / 16)) (hexDigit (n % 16)) = some n.val := by
  decide +kernel

theorem escaped_escapeLetter {c d : Char} (h : escapeLetter c = some d) : escaped d = some c ∧ d ≠ 'u' := by
  unfold escapeLetter at h
  split at h <;> cases h <;> exact ⟨rfl, by decide⟩

theorem escapeLetter_none {c : Char} (h : escapeLetter c = none) : c ≠ '"' ∧ c ≠ '\\' := by
  refine ⟨?_, ?_⟩
  all_goals
    rintro rfl
    cases h

theorem readString_escaped {c d : Char} (h : escaped d = some c) (hd : d ≠ 'u') (rest : List Char) :
    readString ('\\' :: d :: rest) = (readString rest).map fun p => (c :: p.1, p.2) := by
  conv_lhs => unfold readString
  rw [if_neg (by decide), if_pos rfl]
  split
  · rename_i he
    exact absurd (List.cons.inj he).1 hd
  · rename_i he
    obtain ⟨rfl, rfl⟩ := List.cons.inj he
    rw [h]
    rfl
  · rename_i he
    cases he

/-- a control character is four digits -/
theorem readString_control {c : Char} (h : c.toNat < 32) (rest : List Char) :
    readString ('\\' :: 'u' :: '0' :: '0' :: hexDigit (c.toNat / 16) :: hexDigit (c.toNat % 16) :: rest) =
      (readString rest).map fun p => (c :: p.1, p.2) := by
  have hunit : codeUnit '0' '0' (hexDigit (c.toNat / 16)) (hexDigit (c.toNat % 16)) = some c.toNat :=
    codeUnit_hexDigit ⟨c.toNat, h⟩
  have hplane : ¬(0xD800 ≤ c.toNat ∧ c.toNat < 0xE000) := by omega
  conv_lhs => unfold readString
  rw [if_neg (by decide), if_pos rfl]
  show (codeUnit _ _ _ _ >>= _) = _
  rw [hunit]
  refine (if_neg hplane).trans ?_
  rw [Char.ofNat_toNat]

theorem readString_quoteChar (c : Char) (rest : List Char) :
    readString (quoteChar c ++ rest) = (readString rest).map fun p => (c :: p.1, p.2) := by
  unfold quoteChar
  split
  · rename_i d hd
    obtain ⟨hc, hu⟩ := escaped_escapeLetter hd
    exact readString_escaped hc hu rest
  · rename_i hnone
    obtain ⟨hquote, hslash⟩ := escapeLetter_none hnone
    split
    · rename_i hcontrol
      exact readString_control hcontrol rest
    · rename_i hcontrol
      show readString (c :: rest) = _
      conv_lhs => unfold readString
      rw [if_neg hquote, if_neg hslash, if_neg hcontrol]

theorem readString_chars (cs rest : List Char) :
    readString (cs.flatMap quoteChar ++ '"' :: rest) = some (cs, rest) := by
  induction cs with
  | nil =>
    show readString ('"' :: rest) = _
    unfold readString
    rw [if_pos rfl]
  | cons c cs ih =>
    rw [List.flatMap_cons, List.append_assoc, readString_quoteChar, ih]
    rfl

theorem quote_append (s : String) (rest : List Char) :
    quote s ++ rest = '"' :: (s.toList.flatMap quoteChar ++ '"' :: rest) := by
  unfold quote
  rw [List.cons_append, List.append_assoc]
  rfl

theorem readValue_quote (s : String) (rest : List Char) (fuel : ℕ) :
    readValue (fuel + 1) (quote s ++ rest) = some (.string s, rest) := by
  rw [quote_append]
  unfold readValue
  show (readString (s.toList.flatMap quoteChar ++ '"' :: rest)).map _ = _
  rw [readString_chars]
  show some (Value.string (String.ofList s.toList), rest) = _
  rw [String.ofList_toList]

theorem readValue_integer (n : ℤ) {rest : List Char} (hrest : Ends rest) (fuel : ℕ) :
    readValue (fuel + 1) (integerText n ++ rest) = some (.number n, rest) := by
  unfold integerText
  split
  · rename_i hneg
    have hn : -((n.natAbs : ℕ) : ℚ) = n := by
      rw [← Int.cast_natCast, ← Int.cast_neg]
      exact congrArg Int.cast (by omega)
    have hread : readNumber ('-' :: (NumberText.digits n.natAbs ++ rest)) = some ((n : ℚ), rest) := by
      show (readUnsigned _).map _ = _
      rw [readUnsigned_digits n.natAbs hrest, ← hn]
      rfl
    exact readValue_number (.inr rfl) hread fuel
  · rename_i hneg
    have hn : ((n.natAbs : ℕ) : ℚ) = n := by
      rw [← Int.cast_natCast]
      exact congrArg Int.cast (by omega)
    rw [readValue_digits n.natAbs hrest, hn]

theorem memberChars_start {ms : List (String × Doc)} (hne : ms ≠ []) : ∃ t, Doc.memberChars ms = '"' :: t := by
  match ms with
  | [] => exact absurd rfl hne
  | [(name, v)] => exact ⟨_, rfl⟩
  | (name, v) :: m :: ms => exact ⟨_, rfl⟩

theorem readValue_object {ms : List (String × Doc)} {rest : List Char} {fuel : ℕ}
    (h : ms ≠ [] → readMembers fuel (Doc.memberChars ms ++ rest) = some (Doc.values ms, rest)) :
    readValue (fuel + 1) ((Doc.object ms).chars ++ rest) = some ((Doc.object ms).value, rest) := by
  by_cases hne : ms = []
  · rw [hne]
    rfl
  · obtain ⟨t, ht⟩ := memberChars_start hne
    have hread := h hne
    show readValue (fuel + 1) ('\x7b' :: (Doc.memberChars ms ++ rest)) = some (.object (Doc.values ms), rest)
    rw [ht] at hread ⊢
    conv_lhs => unfold readValue
    show (readMembers fuel ('"' :: (t ++ rest))).map _ = _
    rw [show readMembers fuel ('"' :: (t ++ rest)) = _ from hread]
    rfl

theorem member_append (name : String) (v : Doc) (tail rest : List Char) :
    (quote name ++ ':' :: (v.chars ++ tail)) ++ rest =
      '"' :: (name.toList.flatMap quoteChar ++ '"' :: (':' :: (v.chars ++ (tail ++ rest)))) := by
  rw [List.append_assoc, quote_append, List.cons_append, List.append_assoc]

theorem length_member (name : String) (v : Doc) (tail : List Char) :
    v.chars.length + tail.length < (quote name ++ ':' :: (v.chars ++ tail)).length := by
  rw [List.length_append, List.length_cons, List.length_append]
  omega

theorem chars_pos (d : Doc) : 0 < d.chars.length := by
  cases d with
  | text s => exact Nat.succ_pos _
  | integer n =>
    show 0 < (integerText n).length
    unfold integerText
    split
    · exact Nat.succ_pos _
    · exact Nat.length_toDigits_pos
  | object ms => exact Nat.succ_pos _

mutual

theorem readValue_chars (d : Doc) {rest : List Char} (hrest : Ends rest) (fuel : ℕ) (hfuel : d.chars.length ≤ fuel) :
    readValue fuel (d.chars ++ rest) = some (d.value, rest) := by
  have hpos := chars_pos d
  obtain ⟨k, rfl⟩ : ∃ k, fuel = k + 1 := ⟨fuel - 1, by omega⟩
  match d with
  | .text s => exact readValue_quote s rest k
  | .integer n => exact readValue_integer n hrest k
  | .object ms => exact readValue_object fun hne => readMembers_chars ms hne rest k (Nat.le_of_succ_le_succ hfuel)

theorem readMembers_chars (ms : List (String × Doc)) (hne : ms ≠ []) (rest : List Char) (fuel : ℕ)
    (hfuel : (Doc.memberChars ms).length ≤ fuel) :
    readMembers fuel (Doc.memberChars ms ++ rest) = some (Doc.values ms, rest) := by
  match ms with
  | [] => exact absurd rfl hne
  | [(name, v)] =>
    have hlength := Nat.lt_of_lt_of_le (length_member name v ['}']) hfuel
    obtain ⟨k, rfl⟩ : ∃ k, fuel = k + 1 := ⟨fuel - 1, by omega⟩
    have hends : Ends ('}' :: rest) := ⟨_, _, rfl, .inr rfl⟩
    have hvalue := readValue_chars v hends k (by omega)
    show readMembers (k + 1) ((quote name ++ ':' :: (v.chars ++ ['}'])) ++ rest) = _
    rw [member_append, List.singleton_append, readMembers_brace (readString_chars name.toList _) hvalue,
      String.ofList_toList]
    rfl
  | (name, v) :: m :: ms =>
    have hlength := Nat.lt_of_lt_of_le (length_member name v (',' :: Doc.memberChars (m :: ms))) hfuel
    rw [List.length_cons] at hlength
    obtain ⟨k, rfl⟩ : ∃ k, fuel = k + 1 := ⟨fuel - 1, by omega⟩
    have hends : Ends (',' :: (Doc.memberChars (m :: ms) ++ rest)) := ⟨_, _, rfl, .inl rfl⟩
    have hvalue := readValue_chars v hends k (by omega)
    have hrest := readMembers_chars (m :: ms) (List.cons_ne_nil m ms) rest k (by omega)
    show readMembers (k + 1) ((quote name ++ ':' :: (v.chars ++ ',' :: Doc.memberChars (m :: ms))) ++ rest) = _
    rw [member_append, List.cons_append, readMembers_comma (readString_chars name.toList _) hvalue, hrest,
      String.ofList_toList]
    rfl

end

/-- **An object that was written is read as it was.** -/
theorem parse_stringify (ms : List (String × Doc)) :
    parse (Doc.object ms).stringify = some (Doc.object ms).value := by
  have hlength : (Doc.object ms).stringify.length = (Doc.memberChars ms).length + 1 := String.length_ofList
  have hread : readValue (2 * (Doc.object ms).stringify.length + 2) ((Doc.object ms).chars ++ []) =
      some ((Doc.object ms).value, []) :=
    readValue_object fun hne => readMembers_chars ms hne [] _ (by omega)
  have htext : (Doc.object ms).stringify.toList = (Doc.object ms).chars ++ [] := by
    rw [List.append_nil]
    exact String.toList_ofList
  unfold parse
  rw [htext, hread]
  rfl

end Json
