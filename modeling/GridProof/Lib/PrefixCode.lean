import Mathlib.Data.List.TakeWhile
import Mathlib.Tactic.Common

/-!
# Printings that can be read back

A printing `p : α → List γ` is put in front of a text.  It is *readable* in front of the texts of `D` when
the whole determines both the value and the text that follows.

* `Readable.injective`    a printing readable at the end of a text tells values apart;
* `Readable.lit`, `before`, `pair`  a literal in front or behind, and one printing after the other;
* `readable_of_span`      an injective printing of symbols that do not start what follows (numbers);
* `Readable.closed`       any number of codes and a terminator (the body of a string);
* `Readable.list`         values between separators and a terminator (an array).
-/

namespace PrefixCode

variable {α β γ : Type*}

/-- what is printed by `p` in front of a text of `D` determines the value and the text -/
def Readable (D : List γ → Prop) (p : α → List γ) : Prop :=
  ∀ a b x y, D x → D y → p a ++ x = p b ++ y → a = b ∧ x = y

/-- the texts that start with a symbol of `S` -/
def StartsIn (S : γ → Prop) : List γ → Prop
  | [] => False
  | c :: _ => S c

/-- any text -/
def Anything (_ : List γ) : Prop := True

section
variable {D E : List γ → Prop} {p : α → List γ} {q : β → List γ}

theorem Readable.injective (h : Readable D p) (hD : D []) : Function.Injective p := by
  intro a b hab
  refine (h a b [] [] hD hD ?_).1
  rw [hab]

theorem Readable.mono (h : Readable D p) (hED : ∀ x, E x → D x) : Readable E p :=
  fun a b x y hx hy => h a b x y (hED x hx) (hED y hy)

/-- a printing in front of any text is readable in front of all of them -/
theorem Readable.of_anything (h : Readable Anything p) : Readable D p := h.mono fun _ _ => trivial

theorem Readable.comp (h : Readable D p) {f : β → α} (hf : Function.Injective f) :
    Readable D (p ∘ f) := by
  intro a b x y hx hy he
  obtain ⟨hab, hxy⟩ := h (f a) (f b) x y hx hy he
  exact ⟨hf hab, hxy⟩

theorem Readable.lit (h : Readable D p) (w : List γ) : Readable D fun a => w ++ p a := by
  intro a b x y hx hy he
  rw [List.append_assoc, List.append_assoc] at he
  exact h a b x y hx hy (List.append_cancel_left he)

/-- a literal behind the value, which starts as the value needs -/
theorem Readable.before (h : Readable D p) (w : List γ) (hD : ∀ x, E x → D (w ++ x)) :
    Readable E fun a => p a ++ w := by
  intro a b x y hx hy he
  rw [List.append_assoc, List.append_assoc] at he
  obtain ⟨hab, hrest⟩ := h a b _ _ (hD x hx) (hD y hy) he
  exact ⟨hab, List.append_cancel_left hrest⟩

/-- one printing after another, where the second starts as the first needs -/
theorem Readable.pair (hp : Readable D p) (hq : Readable E q) (hD : ∀ b x, E x → D (q b ++ x)) :
    Readable E fun ab : α × β => p ab.1 ++ q ab.2 := by
  intro a b x y hx hy he
  rw [List.append_assoc, List.append_assoc] at he
  obtain ⟨h1, hrest⟩ := hp a.1 b.1 _ _ (hD a.2 x hx) (hD b.2 y hy) he
  obtain ⟨h2, hxy⟩ := hq a.2 b.2 x y hx hy hrest
  exact ⟨Prod.ext h1 h2, hxy⟩

end

/-! ## printings of a set of symbols -/

theorem takeWhile_of_startsIn {S : γ → Prop} [DecidablePred S] {w x : List γ} (hw : ∀ c ∈ w, ¬ S c)
    (hx : StartsIn S x) : (w ++ x).takeWhile (fun c => ¬ S c) = w := by
  have hpos : ∀ c ∈ w, decide (¬ S c) = true := fun c hc => decide_eq_true (hw c hc)
  rw [List.takeWhile_append_of_pos hpos]
  cases x with
  | nil => exact hx.elim
  | cons c x =>
    have hc : S c := hx
    rw [List.takeWhile_cons_of_neg (by simpa using hc), List.append_nil]

/-- an injective printing is readable in front of texts that start with a symbol it never uses -/
theorem readable_of_span {S : γ → Prop} [DecidablePred S] {p : α → List γ} (hp : Function.Injective p)
    (hS : ∀ a, ∀ c ∈ p a, ¬ S c) : Readable (StartsIn S) p := by
  intro a b x y hx hy he
  have hab : p a = p b := by
    rw [← takeWhile_of_startsIn (hS a) hx, ← takeWhile_of_startsIn (hS b) hy, he]
  refine ⟨hp hab, ?_⟩
  rw [hab] at he
  exact List.append_cancel_left he

/-! ## codes and a terminator -/

/-- the codes of a list, and the terminator -/
def closed (p : α → List γ) (stop : γ) (l : List α) : List γ := l.flatMap p ++ [stop]

theorem closed_nil (p : α → List γ) (stop : γ) (x : List γ) : closed p stop [] ++ x = stop :: x := rfl

theorem closed_cons (p : α → List γ) (stop : γ) (a : α) (l : List α) (x : List γ) :
    closed p stop (a :: l) ++ x = p a ++ (closed p stop l ++ x) := by
  unfold closed
  rw [List.flatMap_cons, List.append_assoc, List.append_assoc, List.append_assoc]

/-- no code starts with the symbol, and none is empty -/
def Avoids (p : α → List γ) (stop : γ) : Prop := ∀ a, ∃ c w, p a = c :: w ∧ c ≠ stop

theorem Avoids.append_ne {p : α → List γ} {stop : γ} (h : Avoids p stop) (a : α) (w x : List γ) :
    p a ++ w ≠ stop :: x := by
  obtain ⟨c, v, hc, hne⟩ := h a
  rw [hc]
  intro he
  exact hne (List.cons.inj he).1

theorem Readable.closed {p : α → List γ} {stop : γ} (hp : Readable Anything p)
    (havoid : Avoids p stop) : Readable Anything (closed p stop) := by
  intro l m x y _ _ he
  induction l generalizing m with
  | nil =>
    cases m with
    | nil => exact ⟨rfl, (List.cons.inj he).2⟩
    | cons b m =>
      rw [closed_nil, closed_cons] at he
      exact absurd he.symm (havoid.append_ne b _ _)
  | cons a l ih =>
    cases m with
    | nil =>
      rw [closed_nil, closed_cons] at he
      exact absurd he (havoid.append_ne a _ _)
    | cons b m =>
      rw [closed_cons, closed_cons] at he
      obtain ⟨rfl, hrest⟩ := hp a b _ _ trivial trivial he
      obtain ⟨rfl, hxy⟩ := ih m hrest
      exact ⟨rfl, hxy⟩

/-! ## values between separators -/

/-- the values that follow the first one, each behind a separator -/
def rest (p : α → List γ) (sep stop : γ) (l : List α) : List γ := closed (fun a => sep :: p a) stop l

/-- a list of values: separators between them, the terminator at the end -/
def list (p : α → List γ) (sep stop : γ) : List α → List γ
  | [] => [stop]
  | a :: l => p a ++ rest p sep stop l

theorem list_eq (p : α → List γ) (sep stop : γ) (l : List α) :
    list p sep stop l = List.intercalate [sep] (l.map p) ++ [stop] := by
  cases l with
  | nil => rfl
  | cons a l =>
    show p a ++ closed (fun a => sep :: p a) stop l = _
    induction l generalizing a with
    | nil => rw [List.map_singleton, List.intercalate_singleton]; rfl
    | cons b l ih =>
      have hstep := closed_cons (fun a => sep :: p a) stop b l []
      rw [List.append_nil, List.append_nil] at hstep
      rw [hstep, List.cons_append, ih b, List.map_cons, List.map_cons, List.map_cons,
        List.intercalate_cons_cons, List.append_assoc, List.append_assoc, List.singleton_append]

/-- what follows a value of a list: a separator or the terminator -/
theorem rest_starts (p : α → List γ) (sep stop : γ) (l : List α) (x : List γ) :
    StartsIn (fun c => c = sep ∨ c = stop) (rest p sep stop l ++ x) := by
  cases l with
  | nil => exact .inr rfl
  | cons a l => exact .inl rfl

theorem Readable.rest {p : α → List γ} {sep stop : γ} (hne : sep ≠ stop)
    (hp : Readable (StartsIn fun c => c = sep ∨ c = stop) p) :
    Readable Anything (rest p sep stop) := by
  intro l m x y _ _ he
  induction l generalizing m with
  | nil =>
    cases m with
    | nil => exact ⟨rfl, (List.cons.inj he).2⟩
    | cons b m => exact absurd (List.cons.inj he).1.symm hne
  | cons a l ih =>
    cases m with
    | nil => exact absurd (List.cons.inj he).1 hne
    | cons b m =>
      unfold PrefixCode.rest at he
      rw [closed_cons, closed_cons, List.cons_append, List.cons_append] at he
      obtain ⟨rfl, hrest⟩ := hp a b _ _ (rest_starts p sep stop l x) (rest_starts p sep stop m y)
        (List.cons.inj he).2
      obtain ⟨rfl, hxy⟩ := ih m hrest
      exact ⟨rfl, hxy⟩

theorem Readable.list {p : α → List γ} {sep stop : γ} (hne : sep ≠ stop)
    (hp : Readable (StartsIn fun c => c = sep ∨ c = stop) p) (havoid : Avoids p stop) :
    Readable Anything (list p sep stop) := by
  intro l m x y _ _ he
  cases l with
  | nil =>
    cases m with
    | nil => exact ⟨rfl, (List.cons.inj he).2⟩
    | cons b m =>
      unfold PrefixCode.list at he
      rw [List.append_assoc] at he
      exact absurd he.symm (havoid.append_ne b _ _)
  | cons a l =>
    cases m with
    | nil =>
      unfold PrefixCode.list at he
      rw [List.append_assoc] at he
      exact absurd he (havoid.append_ne a _ _)
    | cons b m =>
      unfold PrefixCode.list at he
      rw [List.append_assoc, List.append_assoc] at he
      obtain ⟨rfl, hrest⟩ := hp a b _ _ (rest_starts p sep stop l x) (rest_starts p sep stop m y) he
      obtain ⟨rfl, hxy⟩ := Readable.rest hne hp l m x y trivial trivial hrest
      exact ⟨rfl, hxy⟩

end PrefixCode
