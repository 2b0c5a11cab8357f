import GridProof.Lib.NumberText

/-!
# JSON texts

The values that a JSON text denotes, read as `JSON.parse` reads it.

* `readString`, `readNumber`, `readValue`   one value and what stands behind it;
* `parse`            a text that holds one value;
* `Value.member`     a member of an object, the last one of its name;
* `parse_plain`      an object of plain texts and natural numbers, written member by member, reads as these members.

A number is the exact value of its literal; what a double makes of it is `Number.ofRat`.  Half of a surrogate pair is
no character, and a text with one does not parse here.
-/

namespace Json

inductive Value where
  | null
  | bool (b : Bool)
  | number (q : ℚ)
  | string (s : String)
  | array (items : List Value)
  | object (members : List (String × Value))

/-! ## reading -/

def isSpace (c : Char) : Bool := c = ' ' || c = '\n' || c = '\r' || c = '\t'

def skip (cs : List Char) : List Char := cs.dropWhile isSpace

/-- the character behind a backslash -/
def escaped : Char → Option Char
  | '"' => some '"'
  | '\\' => some '\\'
  | '/' => some '/'
  | 'b' => some '\x08'
  | 'f' => some '\x0c'
  | 'n' => some '\n'
  | 'r' => some '\r'
  | 't' => some '\t'
  | _ => none

def hexValue (c : Char) : Option ℕ :=
  if c.isDigit then some (c.toNat - 48)
  else if 'a' ≤ c ∧ c ≤ 'f' then some (c.toNat - 87)
  else if 'A' ≤ c ∧ c ≤ 'F' then some (c.toNat - 55)
  else none

/-- the code unit of `\uabcd` -/
def codeUnit (a b c d : Char) : Option ℕ := do
  let a ← hexValue a
  let b ← hexValue b
  let c ← hexValue c
  let d ← hexValue d
  return ((a * 16 + b) * 16 + c) * 16 + d

/-- the character of a surrogate pair -/
def surrogates (high low : ℕ) : Option Char :=
  if high < 0xDC00 ∧ 0xDC00 ≤ low ∧ low < 0xE000 then
    some (Char.ofNat (0x10000 + (high - 0xD800) * 0x400 + (low - 0xDC00)))
  else none

/-- a string behind its opening quote, and what stands behind its closing one -/
def readString : List Char → Option (List Char × List Char)
  | [] => none
  | c :: rest =>
    if c = '"' then some ([], rest)
    else if c = '\\' then
      match rest with
      | 'u' :: a :: b :: c :: d :: rest => do
        let unit ← codeUnit a b c d
        if 0xD800 ≤ unit ∧ unit < 0xE000 then
          match rest with
          | '\\' :: 'u' :: e :: f :: g :: h :: rest => do
            let c ← surrogates unit (← codeUnit e f g h)
            (readString rest).map fun (s, rest) => (c :: s, rest)
          | _ => none
        else (readString rest).map fun (s, rest) => (Char.ofNat unit :: s, rest)
      | c :: rest => do
        let c ← escaped c
        (readString rest).map fun (s, rest) => (c :: s, rest)
      | [] => none
    else if c.toNat < 32 then none
    else (readString rest).map fun (s, rest) => (c :: s, rest)

/-- digits, and what stands behind them; there is one at least -/
def readDigits (cs : List Char) : Option (List Char × List Char) :=
  let digits := cs.takeWhile Char.isDigit
  if digits = [] then none else some (digits, cs.dropWhile Char.isDigit)

def readFraction : List Char → Option (List Char × List Char)
  | '.' :: cs => readDigits cs
  | cs => some ([], cs)

def readExponent : List Char → Option (ℤ × List Char)
  | c :: cs =>
    if c = 'e' ∨ c = 'E' then
      match cs with
      | '-' :: cs => (readDigits cs).map fun (ds, rest) => (-(Nat.ofDigitChars 10 ds 0 : ℤ), rest)
      | '+' :: cs => (readDigits cs).map fun (ds, rest) => ((Nat.ofDigitChars 10 ds 0 : ℤ), rest)
      | cs => (readDigits cs).map fun (ds, rest) => ((Nat.ofDigitChars 10 ds 0 : ℤ), rest)
    else some (0, c :: cs)
  | [] => some (0, [])

def readUnsigned (cs : List Char) : Option (ℚ × List Char) := do
  let (whole, cs) ← readDigits cs
  if whole.head? = some '0' ∧ whole ≠ ['0'] then none
  let (fraction, cs) ← readFraction cs
  let (exponent, cs) ← readExponent cs
  return (Nat.ofDigitChars 10 (whole ++ fraction) 0 * 10 ^ (exponent - fraction.length), cs)

def readNumber : List Char → Option (ℚ × List Char)
  | '-' :: cs => (readUnsigned cs).map fun (q, rest) => (-q, rest)
  | cs => readUnsigned cs

mutual

/-- a value, if the fuel lasts -/
def readValue : ℕ → List Char → Option (Value × List Char)
  | 0, _ => none
  | fuel + 1, cs =>
    match skip cs with
    | 'n' :: 'u' :: 'l' :: 'l' :: rest => some (.null, rest)
    | 't' :: 'r' :: 'u' :: 'e' :: rest => some (.bool true, rest)
    | 'f' :: 'a' :: 'l' :: 's' :: 'e' :: rest => some (.bool false, rest)
    | '"' :: rest => (readString rest).map fun (s, rest) => (.string (String.ofList s), rest)
    | '[' :: rest =>
      match skip rest with
      | ']' :: rest => some (.array [], rest)
      | rest => (readItems fuel rest).map fun (items, rest) => (.array items, rest)
    | '{' :: rest =>
      match skip rest with
      | '}' :: rest => some (.object [], rest)
      | rest => (readMembers fuel rest).map fun (members, rest) => (.object members, rest)
    | rest => (readNumber rest).map fun (q, rest) => (.number q, rest)

/-- the items of an array, up to its bracket -/
def readItems : ℕ → List Char → Option (List Value × List Char)
  | 0, _ => none
  | fuel + 1, cs => do
    let (item, rest) ← readValue fuel cs
    match skip rest with
    | ',' :: rest => (readItems fuel rest).map fun (items, rest) => (item :: items, rest)
    | ']' :: rest => some ([item], rest)
    | _ => none

/-- the members of an object, up to its brace -/
def readMembers : ℕ → List Char → Option (List (String × Value) × List Char)
  | 0, _ => none
  | fuel + 1, cs =>
    match skip cs with
    | '"' :: rest => do
      let (name, rest) ← readString rest
      match skip rest with
      | ':' :: rest => do
        let (value, rest) ← readValue fuel rest
        match skip rest with
        | ',' :: rest =>
          (readMembers fuel rest).map fun (members, rest) => ((String.ofList name, value) :: members, rest)
        | '}' :: rest => some ([(String.ofList name, value)], rest)
        | _ => none
      | _ => none
    | _ => none

end

/-- a value takes a character, and less than two rounds of the parser for each -/
def parse (text : String) : Option Value :=
  match readValue (2 * text.length + 2) text.toList with
  | some (value, rest) => if skip rest = [] then some value else none
  | none => none

example : (parse "\x7b\"a\": [1, -2.5e1, \"x\\u0041\\n\"], \"b\":null\x7d").isSome = true := by decide +kernel

def Value.member (name : String) : Value → Option Value
  | .object members => (members.reverse.find? fun m => m.1 = name).map Prod.snd
  | _ => none

/-! ## plain objects -/

inductive Scalar where
  | text (s : String)
  | natural (n : ℕ)

def Scalar.value : Scalar → Value
  | .text s => .string s
  | .natural n => .number n

def Scalar.print : Scalar → List Char
  | .text s => '"' :: (s.toList ++ ['"'])
  | .natural n => NumberText.digits n

def printMember (m : String × Scalar) : List Char := '"' :: (m.1.toList ++ '"' :: ':' :: m.2.print)

/-- members, up to the brace -/
def printMembers : List (String × Scalar) → List Char
  | [] => ['}']
  | [m] => printMember m ++ ['}']
  | m :: ms => printMember m ++ ',' :: printMembers ms

/-- no character of the text is escaped -/
def Plain (s : String) : Prop := ∀ c ∈ s.toList, c ≠ '"' ∧ c ≠ '\\' ∧ 32 ≤ c.toNat

def Scalar.Plain : Scalar → Prop
  | .text s => Json.Plain s
  | .natural _ => True

theorem readString_plain {s : List Char} (h : ∀ c ∈ s, c ≠ '"' ∧ c ≠ '\\' ∧ 32 ≤ c.toNat) (rest : List Char) :
    readString (s ++ '"' :: rest) = some (s, rest) := by
  induction s with
  | nil =>
    show readString ('"' :: rest) = _
    unfold readString
    rw [if_pos rfl]
  | cons c s ih =>
    obtain ⟨hquote, hslash, hcontrol⟩ := h c List.mem_cons_self
    show readString (c :: (s ++ '"' :: rest)) = _
    unfold readString
    rw [if_neg hquote, if_neg hslash, if_neg (Nat.not_lt.mpr hcontrol),
      ih fun c hc => h c (List.mem_cons_of_mem _ hc)]
    rfl

/-! ## naturals -/

open NumberText (digits digit_of_mem ofDigitChars_digits)

/-- the text goes on with no part of a number -/
def Ends (rest : List Char) : Prop := ∃ c cs, rest = c :: cs ∧ (c = ',' ∨ c = '}')

theorem readDigits_digits (n : ℕ) {rest : List Char} (hrest : Ends rest) :
    readDigits (digits n ++ rest) = some (digits n, rest) := by
  have hdigits : ∀ c ∈ digits n, c.isDigit = true := fun c hc => digit_of_mem hc
  obtain ⟨c, cs, rfl, hc⟩ := hrest
  have hstop : ¬c.isDigit = true := by
    rcases hc with rfl | rfl
    · decide
    · decide
  unfold readDigits
  rw [List.takeWhile_append_of_pos hdigits, List.dropWhile_append_of_pos hdigits, List.takeWhile_cons_of_neg hstop,
    List.dropWhile_cons_of_neg hstop, List.append_nil]
  exact if_neg Nat.toDigits_ne_nil

/-- no zero leads -/
theorem digits_head {n : ℕ} (h : (digits n).head? = some '0') : digits n = ['0'] := by
  induction n using Nat.strongRecOn with
  | ind n ih =>
    by_cases hsmall : n < 10
    · have hone : digits n = [n.digitChar] := Nat.toDigits_of_lt_base hsmall
      rw [hone] at h ⊢
      rw [Option.some.inj h]
    · have hsplit : digits n = digits (n / 10) ++ [(n % 10).digitChar] :=
        Nat.toDigits_of_base_le (by decide) (Nat.le_of_not_lt hsmall)
      have hne : digits (n / 10) ≠ [] := Nat.toDigits_ne_nil
      rw [hsplit, List.head?_append_of_ne_nil _ hne] at h
      have hzero := congrArg (Nat.ofDigitChars 10 · 0) (ih (n / 10) (by omega) h)
      rw [ofDigitChars_digits] at hzero
      have hzero : n / 10 = 0 := hzero
      omega

theorem readUnsigned_digits (n : ℕ) {rest : List Char} (hrest : Ends rest) :
    readUnsigned (digits n ++ rest) = some ((n : ℚ), rest) := by
  have hlead : ¬((digits n).head? = some '0' ∧ digits n ≠ ['0']) := fun h => h.2 (digits_head h.1)
  have hdigits := readDigits_digits n hrest
  obtain ⟨c, cs, rfl, hc⟩ := hrest
  have hfraction : readFraction (c :: cs) = some ([], c :: cs) := by
    rcases hc with rfl | rfl
    · rfl
    · rfl
  have hexponent : readExponent (c :: cs) = some (0, c :: cs) := by
    rcases hc with rfl | rfl
    · rfl
    · rfl
  unfold readUnsigned
  rw [hdigits]
  simp only [Option.bind_eq_bind, Option.bind_some, if_neg hlead, hfraction, hexponent]
  rw [List.append_nil, ofDigitChars_digits]
  simp

theorem readNumber_digits (n : ℕ) {rest : List Char} (hrest : Ends rest) :
    readNumber (digits n ++ rest) = some ((n : ℚ), rest) := by
  rw [← readUnsigned_digits n hrest]
  unfold readNumber
  split
  · rename_i cs hminus
    -- a digit is no minus
    have hne : digits n ≠ [] := Nat.toDigits_ne_nil
    obtain ⟨c, ds, hds⟩ := List.exists_cons_of_ne_nil hne
    rw [hds] at hminus
    have hc : c.isDigit = true := digit_of_mem (hds ▸ List.mem_cons_self)
    rw [(List.cons.inj hminus).1] at hc
    cases hc
  · rfl

/-! ## objects -/

theorem readValue_number {c : Char} {cs rest : List Char} {q : ℚ} (hc : c.isDigit = true ∨ c = '-')
    (h : readNumber (c :: cs) = some (q, rest)) (fuel : ℕ) :
    readValue (fuel + 1) (c :: cs) = some (.number q, rest) := by
  have hskip : skip (c :: cs) = c :: cs := by
    refine List.dropWhile_cons_of_neg fun hspace => ?_
    unfold isSpace at hspace
    simp only [Bool.or_eq_true, decide_eq_true_eq] at hspace
    rcases hspace with ((rfl | rfl) | rfl) | rfl
    all_goals
      rcases hc with hc | hc
      · cases hc
      · exact absurd hc (by decide)
  have hother : ∀ d, d.isDigit = false → d ≠ '-' → ∀ ds, c :: cs ≠ d :: ds := by
    intro d hd hminus ds he
    obtain ⟨rfl, -⟩ := List.cons.inj he
    rcases hc with hc | hc
    · rw [hd] at hc
      cases hc
    · exact hminus hc
  unfold readValue
  rw [hskip]
  split
  · rename_i he
    exact absurd he (hother 'n' rfl (by decide) _)
  · rename_i he
    exact absurd he (hother 't' rfl (by decide) _)
  · rename_i he
    exact absurd he (hother 'f' rfl (by decide) _)
  · rename_i he
    exact absurd he (hother '"' rfl (by decide) _)
  · rename_i he
    exact absurd he (hother '[' rfl (by decide) _)
  · rename_i he
    exact absurd he (hother '\x7b' rfl (by decide) _)
  · rw [h]
    rfl

theorem readValue_digits (n : ℕ) {rest : List Char} (hrest : Ends rest) (fuel : ℕ) :
    readValue (fuel + 1) (digits n ++ rest) = some (.number n, rest) := by
  have hread := readNumber_digits n hrest
  have hne : digits n ≠ [] := Nat.toDigits_ne_nil
  obtain ⟨c, ds, hds⟩ := List.exists_cons_of_ne_nil hne
  rw [hds] at hread ⊢
  exact readValue_number (.inl (digit_of_mem (hds ▸ List.mem_cons_self))) hread fuel

theorem readValue_scalar {v : Scalar} (h : v.Plain) {rest : List Char} (hrest : Ends rest) (fuel : ℕ) :
    readValue (fuel + 1) (v.print ++ rest) = some (v.value, rest) := by
  cases v with
  | text s =>
    show readValue (fuel + 1) ('"' :: ((s.toList ++ ['"']) ++ rest)) = _
    rw [List.append_assoc, List.singleton_append]
    unfold readValue
    show (readString (s.toList ++ '"' :: rest)).map _ = _
    rw [readString_plain h]
    show some (Value.string (String.ofList s.toList), rest) = _
    rw [String.ofList_toList]
    rfl
  | natural n => exact readValue_digits n hrest fuel

theorem readMembers_brace {name t u rest : List Char} {v : Value} {fuel : ℕ}
    (hname : readString t = some (name, ':' :: u)) (hvalue : readValue fuel u = some (v, '}' :: rest)) :
    readMembers (fuel + 1) ('"' :: t) = some ([(String.ofList name, v)], rest) := by
  unfold readMembers
  show (readString t >>= _) = _
  rw [hname]
  show (readValue fuel u >>= _) = _
  rw [hvalue]
  rfl

theorem readMembers_comma {name t u rest : List Char} {v : Value} {fuel : ℕ}
    (hname : readString t = some (name, ':' :: u)) (hvalue : readValue fuel u = some (v, ',' :: rest)) :
    readMembers (fuel + 1) ('"' :: t) =
      (readMembers fuel rest).map fun p => ((String.ofList name, v) :: p.1, p.2) := by
  conv_lhs => unfold readMembers
  show (readString t >>= _) = _
  rw [hname]
  show (readValue fuel u >>= _) = _
  rw [hvalue]
  rfl

theorem printMember_append (m : String × Scalar) (rest : List Char) :
    printMember m ++ rest = '"' :: (m.1.toList ++ '"' :: (':' :: (m.2.print ++ rest))) := by
  unfold printMember
  rw [List.cons_append, List.append_assoc]
  rfl

theorem readMembers_last {m : String × Scalar} (hname : Plain m.1) (hvalue : m.2.Plain) (rest : List Char)
    (fuel : ℕ) : readMembers (fuel + 2) (printMember m ++ '}' :: rest) = some ([(m.1, m.2.value)], rest) := by
  have hends : Ends ('}' :: rest) := ⟨_, _, rfl, .inr rfl⟩
  rw [printMember_append, readMembers_brace (readString_plain hname _) (readValue_scalar hvalue hends fuel),
    String.ofList_toList]

theorem readMembers_more {m : String × Scalar} (hname : Plain m.1) (hvalue : m.2.Plain) (rest : List Char)
    (fuel : ℕ) : readMembers (fuel + 2) (printMember m ++ ',' :: rest) =
      (readMembers (fuel + 1) rest).map fun p => ((m.1, m.2.value) :: p.1, p.2) := by
  have hends : Ends (',' :: rest) := ⟨_, _, rfl, .inl rfl⟩
  rw [printMember_append, readMembers_comma (readString_plain hname _) (readValue_scalar hvalue hends fuel),
    String.ofList_toList]

theorem readMembers_print {ms : List (String × Scalar)} (hne : ms ≠ []) (h : ∀ m ∈ ms, Plain m.1 ∧ m.2.Plain)
    (rest : List Char) (fuel : ℕ) (hfuel : ms.length < fuel) :
    readMembers fuel (printMembers ms ++ rest) = some (ms.map fun m => (m.1, m.2.value), rest) := by
  induction ms generalizing fuel with
  | nil => exact absurd rfl hne
  | cons m ms ih =>
    obtain ⟨hname, hvalue⟩ := h m List.mem_cons_self
    obtain ⟨k, rfl⟩ : ∃ k, fuel = k + 2 := ⟨fuel - 2, by rw [List.length_cons] at hfuel; omega⟩
    cases ms with
    | nil =>
      show readMembers (k + 2) ((printMember m ++ ['}']) ++ rest) = _
      rw [List.append_assoc, List.singleton_append]
      exact readMembers_last hname hvalue rest k
    | cons m' ms =>
      show readMembers (k + 2) ((printMember m ++ ',' :: printMembers (m' :: ms)) ++ rest) = _
      rw [List.append_assoc, List.cons_append, readMembers_more hname hvalue,
        ih (List.cons_ne_nil m' ms) (fun m hm => h m (List.mem_cons_of_mem _ hm)) (k + 1)
          (Nat.lt_of_succ_lt_succ hfuel)]
      rfl

theorem printMembers_start {ms : List (String × Scalar)} (hne : ms ≠ []) : ∃ t, printMembers ms = '"' :: t := by
  cases ms with
  | nil => exact absurd rfl hne
  | cons m ms =>
    cases ms with
    | nil => exact ⟨_, rfl⟩
    | cons m' ms => exact ⟨_, rfl⟩

theorem length_printMembers (ms : List (String × Scalar)) : ms.length ≤ (printMembers ms).length := by
  induction ms with
  | nil => exact Nat.zero_le _
  | cons m ms ih =>
    cases ms with
    | nil =>
      show 1 ≤ (printMember m ++ ['}']).length
      rw [List.length_append]
      exact Nat.le_add_left _ _
    | cons m' ms =>
      show (m' :: ms).length + 1 ≤ (printMember m ++ ',' :: printMembers (m' :: ms)).length
      rw [List.length_append, List.length_cons (a := ',')]
      omega

/-- **An object of plain texts and naturals parses as what it is written from.** -/
theorem parse_plain {text : String} {ms : List (String × Scalar)} (hne : ms ≠ [])
    (h : ∀ m ∈ ms, Plain m.1 ∧ m.2.Plain) (htext : text.toList = '\x7b' :: printMembers ms) :
    parse text = some (.object (ms.map fun m => (m.1, m.2.value))) := by
  have hlength : (printMembers ms).length + 1 = text.length := by
    rw [← String.length_toList, htext, List.length_cons]
  have hmembers := readMembers_print hne h [] (2 * text.length + 1)
    (by have := length_printMembers ms; omega)
  rw [List.append_nil] at hmembers
  have hread : readValue (2 * text.length + 2) ('\x7b' :: printMembers ms) =
      (readMembers (2 * text.length + 1) (printMembers ms)).map fun p => (.object p.1, p.2) := by
    obtain ⟨t, ht⟩ := printMembers_start hne
    rw [ht]
    conv_lhs => unfold readValue
    rfl
  unfold parse
  rw [htext, hread, hmembers]
  rfl

end Json
