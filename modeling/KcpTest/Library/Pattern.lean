import Mathlib.Data.List.TakeWhile

/-!
Contract: search patterns of literals and captured greedy runs.

Owns: a matcher that backtracks from the longest run to shorter ones, leftmost
search, soundness of both, and the condition under which a text is matched with
given captures.

Does **not** own an alphabet; the symbols and the classes of symbols are
parameters.
-/

set_option autoImplicit false

namespace KcpTest.Library.Pattern

universe u v

variable {α : Type u} {β : Type v}

/-- One piece of a pattern: a literal, or a captured run of one symbol or more
of a class. -/
inductive Item (α : Type u) where
  | literal (word : List α)
  | run (test : α → Bool)

/-- The first success among the lengths `count`, `count - 1`, …, `1`. -/
def backtrack (attempt : Nat → Option β) : Nat → Option β
  | 0 => none
  | count + 1 =>
      match attempt (count + 1) with
      | some result => some result
      | none => backtrack attempt count

section Matching

variable [DecidableEq α]

/-- The captures of the preferred match at the head of the input. -/
def matchHere : List (Item α) → List α → Option (List (List α))
  | [], _ => some []
  | .literal word :: items, input =>
      if word <+: input then matchHere items (input.drop word.length) else none
  | .run test :: items, input =>
      backtrack
        (fun count => (matchHere items (input.drop count)).map (input.take count :: ·))
        (input.takeWhile test).length

/-- The captures of the leftmost match. -/
def search (items : List (Item α)) : List α → Option (List (List α))
  | [] => matchHere items []
  | symbol :: input =>
      match matchHere items (symbol :: input) with
      | some captures => some captures
      | none => search items input

end Matching

/-! ### What a match is -/

/-- Captures that suit a pattern: one non-empty run of the class for each run. -/
inductive Fits : List (Item α) → List (List α) → Prop
  | nil : Fits [] []
  | literal {items : List (Item α)} {captures : List (List α)} (word : List α)
      (rest : Fits items captures) : Fits (.literal word :: items) captures
  | run {items : List (Item α)} {captures : List (List α)} {test : α → Bool} (capture : List α)
      (nonempty : capture ≠ []) (all : ∀ symbol ∈ capture, test symbol = true)
      (rest : Fits items captures) : Fits (.run test :: items) (capture :: captures)

/-- The text of a pattern with the runs filled in. -/
def fill : List (Item α) → List (List α) → List α
  | .literal word :: items, captures => word ++ fill items captures
  | .run _ :: items, capture :: captures => capture ++ fill items captures
  | _, _ => []

/-- No run of the pattern could be extended into the text behind it. -/
def Greedy (rest : List α) : List (Item α) → List (List α) → Prop
  | .literal _ :: items, captures => Greedy rest items captures
  | .run test :: items, _ :: captures =>
      (∀ symbol, (fill items captures ++ rest).head? = some symbol → test symbol = false) ∧
        Greedy rest items captures
  | _, _ => True

theorem backtrack_some {attempt : Nat → Option β} {count : Nat} {result : β}
    (found : backtrack attempt count = some result) :
    ∃ length, 0 < length ∧ length ≤ count ∧ attempt length = some result := by
  induction count with
  | zero => simp [backtrack] at found
  | succ count inductionHypothesis =>
      simp only [backtrack] at found
      split at found
      · rename_i first
        exact ⟨count + 1, Nat.succ_pos _, Nat.le_refl _, first.trans found⟩
      · obtain ⟨length, pos, le, succeeds⟩ := inductionHypothesis found
        exact ⟨length, pos, Nat.le_succ_of_le le, succeeds⟩

theorem backtrack_longest {attempt : Nat → Option β} {count : Nat} {result : β}
    (pos : 0 < count) (longest : attempt count = some result) :
    backtrack attempt count = some result := by
  obtain ⟨less, rfl⟩ : ∃ less, count = less + 1 := ⟨count - 1, by omega⟩
  simp only [backtrack, longest]

theorem takeWhile_of_stop {test : α → Bool} {run rest : List α}
    (all : ∀ symbol ∈ run, test symbol = true)
    (stop : ∀ symbol, rest.head? = some symbol → test symbol = false) :
    (run ++ rest).takeWhile test = run := by
  rw [List.takeWhile_append_of_pos all]
  cases rest with
  | nil => simp
  | cons symbol rest => simp [stop symbol rfl]

variable [DecidableEq α]

/-! ### Soundness -/

theorem matchHere_sound {items : List (Item α)} {input : List α} {captures : List (List α)}
    (found : matchHere items input = some captures) :
    Fits items captures ∧ fill items captures <+: input := by
  induction items generalizing input captures with
  | nil =>
      obtain rfl : captures = [] := by simpa [matchHere] using found.symm
      exact ⟨Fits.nil, List.nil_prefix⟩
  | cons item items inductionHypothesis =>
      cases item with
      | literal word =>
          simp only [matchHere] at found
          split at found
          · rename_i atHead
            obtain ⟨fits, inside⟩ := inductionHypothesis found
            refine ⟨Fits.literal word fits, ?_⟩
            obtain ⟨tail, rfl⟩ := atHead
            rw [List.drop_left] at inside
            exact (List.prefix_append_right_inj word).mpr inside
          · simp at found
      | run test =>
          obtain ⟨length, pos, le, attempt⟩ := backtrack_some found
          obtain ⟨rest, matched, rfl⟩ := Option.map_eq_some_iff.mp attempt
          obtain ⟨fits, inside⟩ := inductionHypothesis matched
          have within : input.take length <+: input.takeWhile test := by
            apply List.prefix_of_prefix_length_le (List.take_prefix _ _)
              (List.takeWhile_prefix test)
            exact (List.length_take_le _ _).trans le
          have long : length ≤ input.length :=
            le.trans (List.takeWhile_prefix test).length_le
          refine ⟨Fits.run _ ?_ ?_ fits, ?_⟩
          · intro empty
            have := congrArg List.length empty
            rw [List.length_take_of_le long] at this
            exact absurd this (by simpa using pos.ne')
          · exact fun symbol member => List.mem_takeWhile_imp (within.subset member)
          · have extended := (List.prefix_append_right_inj (input.take length)).mpr inside
            rwa [List.take_append_drop] at extended

theorem search_sound {items : List (Item α)} {input : List α} {captures : List (List α)}
    (found : search items input = some captures) :
    Fits items captures ∧ ∃ before, before ++ fill items captures <+: input := by
  induction input with
  | nil =>
      obtain ⟨fits, inside⟩ := matchHere_sound found
      exact ⟨fits, [], inside⟩
  | cons symbol input inductionHypothesis =>
      simp only [search] at found
      split at found
      · rename_i here
        obtain ⟨fits, inside⟩ := matchHere_sound (here.trans found)
        exact ⟨fits, [], inside⟩
      · obtain ⟨fits, before, inside⟩ := inductionHypothesis found
        exact ⟨fits, symbol :: before, List.cons_prefix_cons.mpr ⟨rfl, inside⟩⟩

/-! ### Greedy texts -/

/-- A filled pattern whose runs cannot be extended is matched with its own
captures. -/
theorem matchHere_fill {items : List (Item α)} {captures : List (List α)}
    (fits : Fits items captures) (rest : List α) (greedy : Greedy rest items captures) :
    matchHere items (fill items captures ++ rest) = some captures := by
  induction fits with
  | nil => rfl
  | literal word fits inductionHypothesis =>
      rw [fill, List.append_assoc, matchHere, if_pos (List.prefix_append _ _), List.drop_left]
      exact inductionHypothesis greedy
  | run capture nonempty all fits inductionHypothesis =>
      obtain ⟨stop, greedy⟩ := greedy
      rw [fill, List.append_assoc, matchHere, takeWhile_of_stop all stop]
      apply backtrack_longest (List.length_pos_iff.mpr nonempty)
      rw [List.drop_left, List.take_left, inductionHypothesis greedy]
      rfl

theorem search_of_matchHere {items : List (Item α)} {input : List α}
    {captures : List (List α)} (here : matchHere items input = some captures) :
    search items input = some captures := by
  cases input with
  | nil => exact here
  | cons symbol input => simp only [search, here]

end KcpTest.Library.Pattern
