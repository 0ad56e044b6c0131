import Mathlib.Data.List.Dedup

/-!
# Patterns with finitely many choices

A pattern is a sequence of items, each a choice among finitely many words or any
word at all.  Going through two patterns at once shows that no word has both, if
their words part before anything is allowed.
-/

namespace Ndse

namespace FinitePatterns

variable {α : Type}

/-- A choice among words. -/
inductive Item (α : Type)
  | oneOf (words : List (List α))
  | anything

/-- A word is made of the choices of a pattern, one after the other. -/
inductive Matches : List (Item α) → List α → Prop
  | nil : Matches [] []
  | oneOf {words : List (List α)} {word rest : List α} {pattern : List (Item α)}
      (chosen : word ∈ words) (matched : Matches pattern rest) :
      Matches (.oneOf words :: pattern) (word ++ rest)
  | anything (word : List α) {rest : List α} {pattern : List (Item α)}
      (matched : Matches pattern rest) : Matches (.anything :: pattern) (word ++ rest)

theorem Matches.append {first second : List (Item α)} {one two : List α}
    (matched : Matches first one) (matched' : Matches second two) :
    Matches (first ++ second) (one ++ two) := by
  induction matched with
  | nil => exact matched'
  | oneOf chosen _ ih =>
      rw [List.append_assoc]
      exact .oneOf chosen ih
  | anything word _ ih =>
      rw [List.append_assoc]
      exact .anything word ih

/-- A pattern of one choice. -/
theorem matches_oneOf {words : List (List α)} {word : List α} (chosen : word ∈ words) :
    Matches [.oneOf words] word := by
  have matched := Matches.oneOf chosen .nil
  rwa [List.append_nil] at matched

theorem matches_anything (word : List α) : Matches [.anything] word := by
  have matched := Matches.anything word .nil
  rwa [List.append_nil] at matched

/-- Words put together from pieces, each with a pattern of one item. -/
theorem matches_flatMap {β : Type} {item : β → Item α} {piece : β → List α} {list : List β}
    (each : ∀ entry ∈ list, Matches [item entry] (piece entry)) :
    Matches (list.map item) (list.flatMap piece) := by
  induction list with
  | nil => exact .nil
  | cons entry list ih =>
      rw [List.forall_mem_cons] at each
      exact each.1.append (ih each.2)

/-- The choice among the reversed words. -/
def Item.reverse : Item α → Item α
  | .oneOf words => .oneOf (words.map List.reverse)
  | .anything => .anything

/-- The pattern of the reversed words. -/
def reversed (pattern : List (Item α)) : List (Item α) := (pattern.map Item.reverse).reverse

theorem Matches.reverse {pattern : List (Item α)} {word : List α}
    (matched : Matches pattern word) : Matches (reversed pattern) word.reverse := by
  induction matched with
  | nil => exact .nil
  | oneOf chosen _ ih =>
      rw [reversed, List.map_cons, List.reverse_cons, List.reverse_append]
      exact ih.append (matches_oneOf (List.mem_map_of_mem chosen))
  | anything word _ ih =>
      rw [reversed, List.map_cons, List.reverse_cons, List.reverse_append]
      exact ih.append (matches_anything word.reverse)

/-- The letter that every word of a pattern starts with, if the pattern shows it. -/
def initial : List (Item α) → Option α
  | .oneOf [a :: _] :: _ => some a
  | _ => none

theorem head?_of_initial {pattern : List (Item α)} {letter : α}
    (starts : initial pattern = some letter) {x : List α} (matched : Matches pattern x) :
    x.head? = some letter := by
  rw [initial.eq_def] at starts
  split at starts
  · cases matched with
    | oneOf chosen matched =>
        obtain rfl := List.mem_singleton.mp chosen
        exact starts
  · cases starts

variable [DecidableEq α]

/-- No word is both the first word and the first pattern, and the second word and
the second pattern, as far as the fuel tells. -/
def apart : Nat → List α → List (Item α) → List α → List (Item α) → Bool
  | 0 => fun _ _ _ _ => false
  | fuel + 1 => fun u p v q =>
      match u with
      | [] =>
          match p with
          | .oneOf words :: p => words.all fun word => apart fuel word p v q
          | .anything :: _ => false
          | [] =>
              match v with
              | _ :: _ => true
              | [] =>
                  match q with
                  | .oneOf words :: q => words.all fun word => apart fuel [] [] word q
                  | .anything :: _ => false
                  | [] => false
      | a :: u =>
          match v with
          | b :: v =>
              match decEq a b with
              | isTrue _ => apart fuel u p v q
              | isFalse _ => true
          | [] =>
              match q with
              | .oneOf words :: q => words.all fun word => apart fuel (a :: u) p word q
              | .anything :: _ => false
              | [] => true

theorem ne_of_apart {fuel : Nat} {u v x y : List α} {p q : List (Item α)}
    (parted : apart fuel u p v q = true) (first : Matches p x) (second : Matches q y) :
    u ++ x ≠ v ++ y := by
  induction fuel generalizing u v x y p q with
  | zero => cases parted
  | succ fuel ih =>
      cases u with
      | nil =>
          cases first with
          | @oneOf _ word _ _ chosen matched =>
              exact ih (u := word) (List.all_eq_true.mp parted _ chosen) matched second
          | anything => cases parted
          | nil =>
              cases v with
              | cons b v => exact (List.cons_ne_nil b _).symm
              | nil =>
                  cases second with
                  | @oneOf _ word _ _ chosen matched =>
                      exact ih (v := word) (List.all_eq_true.mp parted _ chosen) .nil matched
                  | anything | nil => cases parted
      | cons a u =>
          cases v with
          | cons b v =>
              intro same
              obtain ⟨rfl, rest⟩ := List.cons.inj same
              simp only [apart] at parted
              split at parted
              · exact ih parted first second rest
              · next other _ => exact other rfl
          | nil =>
              cases second with
              | @oneOf _ word _ _ chosen matched =>
                  exact ih (v := word) (List.all_eq_true.mp parted _ chosen) first matched
              | anything => cases parted
              | nil => exact List.cons_ne_nil a _

/-- No word has both patterns.  A few letters from the left decide between most
patterns, and what these leave is looked at from the right first. -/
def separate (p q : List (Item α)) : Bool :=
  apart 10 [] p [] q || apart 100 [] (reversed p) [] (reversed q) || apart 100 [] p [] q

theorem ne_of_separate {p q : List (Item α)} {x y : List α} (parted : separate p q = true)
    (first : Matches p x) (second : Matches q y) : x ≠ y := by
  rw [separate, Bool.or_eq_true, Bool.or_eq_true] at parted
  obtain (left | right) | left := parted
  · exact ne_of_apart left first second
  · intro same
    exact ne_of_apart right first.reverse second.reverse (congrArg List.reverse same)
  · exact ne_of_apart left first second

section Rows

variable {τ : Type}

/-- The patterns of a list are apart from each other. -/
def allSeparate : List (τ × List (Item α)) → Bool
  | [] => true
  | row :: rows => rows.all (separate row.2 ·.2) && allSeparate rows

theorem eq_of_allSeparate {rows : List (τ × List (Item α))} (parted : allSeparate rows = true)
    {one other : τ × List (Item α)} (first : one ∈ rows) (second : other ∈ rows) {x : List α}
    (matched : Matches one.2 x) (matched' : Matches other.2 x) : one = other := by
  induction rows with
  | nil => cases first
  | cons row rows ih =>
      rw [allSeparate, Bool.and_eq_true, List.all_eq_true] at parted
      obtain ⟨head, tail⟩ := parted
      obtain rfl | later := List.mem_cons.mp first
      · obtain rfl | later' := List.mem_cons.mp second
        · rfl
        · exact absurd rfl (ne_of_separate (head other later') matched matched')
      · obtain rfl | later' := List.mem_cons.mp second
        · exact absurd rfl (ne_of_separate (head one later) matched' matched)
        · exact ih tail later later'

/-- The patterns of a list start with a letter, and those that start with the same
are apart from each other. -/
def separateByInitial (rows : List (τ × List (Item α))) : Bool :=
  rows.all (fun row => (initial row.2).isSome) &&
    (rows.filterMap fun row => initial row.2).dedup.all fun letter =>
      allSeparate (rows.filter fun row => initial row.2 = some letter)

theorem eq_of_separateByInitial {rows : List (τ × List (Item α))}
    (parted : separateByInitial rows = true) {one other : τ × List (Item α)} (first : one ∈ rows)
    (second : other ∈ rows) {x : List α} (matched : Matches one.2 x)
    (matched' : Matches other.2 x) : one = other := by
  rw [separateByInitial, Bool.and_eq_true, List.all_eq_true, List.all_eq_true] at parted
  obtain ⟨starts, groups⟩ := parted
  obtain ⟨letter, initial_one⟩ := Option.isSome_iff_exists.mp (starts one first)
  obtain ⟨letter', initial_other⟩ := Option.isSome_iff_exists.mp (starts other second)
  have same : some letter = some letter' :=
    (head?_of_initial initial_one matched).symm.trans (head?_of_initial initial_other matched')
  rw [← same] at initial_other
  have present : letter ∈ (rows.filterMap fun row => initial row.2).dedup :=
    List.mem_dedup.mpr (List.mem_filterMap.mpr ⟨one, first, initial_one⟩)
  exact eq_of_allSeparate (groups letter present)
    (List.mem_filter.mpr ⟨first, decide_eq_true initial_one⟩)
    (List.mem_filter.mpr ⟨second, decide_eq_true initial_other⟩) matched matched'

end Rows

end FinitePatterns

end Ndse
