import Mathlib.Data.List.Basic

/-! # Tokens of a text

A text falls into the longest pieces without separators. `strtok` finds them one
by one.
-/

namespace Apue.Foundation

variable {Symbol : Type} (separates : Symbol → Bool)

/-- The tokens with a symbol in front, which starts a new one before a separator or
at the end. -/
def extendTokens (symbol : Symbol) (rest : List Symbol) : List (List Symbol) → List (List Symbol)
  | [] => [[symbol]]
  | token :: others =>
      if rest.head?.all separates then [symbol] :: token :: others
      else (symbol :: token) :: others

def tokens : List Symbol → List (List Symbol)
  | [] => []
  | symbol :: rest =>
      if separates symbol then tokens rest else extendTokens separates symbol rest (tokens rest)

/-- The next token, and what is behind the separator that ends it. -/
def strtok (text : List Symbol) : Option (List Symbol × List Symbol) :=
  match text.dropWhile separates with
  | [] => none
  | symbol :: rest =>
      some (symbol :: rest.takeWhile (! separates ·), (rest.dropWhile (! separates ·)).drop 1)

variable {separates} {symbol : Symbol} {text word rest front back : List Symbol}

theorem extendTokens_start (ends : rest.head?.all separates = true) (found : List (List Symbol)) :
    extendTokens separates symbol rest found = [symbol] :: found := by
  cases found with
  | nil => rfl
  | cons token others => rw [extendTokens, if_pos ends]

theorem extendTokens_continue (continues : rest.head?.all separates = false)
    (token : List Symbol) (others : List (List Symbol)) :
    extendTokens separates symbol rest (token :: others) = (symbol :: token) :: others := by
  rw [extendTokens, continues, if_neg Bool.false_ne_true]

theorem tokens_separator (isSeparator : separates symbol = true) (rest : List Symbol) :
    tokens separates (symbol :: rest) = tokens separates rest := by
  rw [tokens, if_pos isSeparator]

theorem tokens_symbol (notSeparator : separates symbol = false) (rest : List Symbol) :
    tokens separates (symbol :: rest) = extendTokens separates symbol rest (tokens separates rest) := by
  rw [tokens, notSeparator, if_neg Bool.false_ne_true]

theorem tokens_ne_nil (notSeparator : separates symbol = false) (rest : List Symbol) :
    tokens separates (symbol :: rest) ≠ [] := by
  rw [tokens_symbol notSeparator]
  cases tokens separates rest with
  | nil => exact List.cons_ne_nil _ _
  | cons token others =>
      rw [extendTokens]
      split
      · exact List.cons_ne_nil _ _
      · exact List.cons_ne_nil _ _

theorem tokens_skip (allSeparate : ∀ symbol ∈ front, separates symbol = true)
    (rest : List Symbol) : tokens separates (front ++ rest) = tokens separates rest := by
  induction front with
  | nil => rfl
  | cons symbol front hypothesis =>
      rw [List.cons_append, tokens_separator (allSeparate symbol List.mem_cons_self)]
      exact hypothesis fun other member => allSeparate other (List.mem_cons_of_mem _ member)

/-- A piece without separators is a token where a separator follows or nothing. -/
theorem tokens_word (nonempty : word ≠ []) (noneSeparates : ∀ symbol ∈ word, separates symbol = false)
    (ends : rest.head?.all separates = true) :
    tokens separates (word ++ rest) = word :: tokens separates rest := by
  induction word with
  | nil => exact absurd rfl nonempty
  | cons symbol word hypothesis =>
      rw [List.cons_append, tokens_symbol (noneSeparates symbol List.mem_cons_self)]
      cases word with
      | nil => exact extendTokens_start ends _
      | cons next word =>
          have continues : ((next :: word) ++ rest).head?.all separates = false :=
            noneSeparates next (by simp)
          rw [hypothesis (List.cons_ne_nil _ _)
            fun other member => noneSeparates other (List.mem_cons_of_mem _ member)]
          exact extendTokens_continue continues _ _

theorem tokens_eq_singleton (nonempty : word ≠ [])
    (noneSeparates : ∀ symbol ∈ word, separates symbol = false) : tokens separates word = [word] := by
  have noRest : ([] : List Symbol).head?.all separates = true := rfl
  have whole := tokens_word nonempty noneSeparates noRest
  rw [List.append_nil] at whole
  exact whole

/-- At a separator a text falls into two. -/
theorem tokens_append (isSeparator : separates symbol = true) (front back : List Symbol) :
    tokens separates (front ++ symbol :: back) = tokens separates front ++ tokens separates back := by
  induction front with
  | nil => exact tokens_separator isSeparator back
  | cons first front hypothesis =>
      rw [List.cons_append]
      cases firstSeparates : separates first with
      | true => rw [tokens_separator firstSeparates, tokens_separator firstSeparates, hypothesis]
      | false =>
          rw [tokens_symbol firstSeparates, tokens_symbol firstSeparates, hypothesis]
          cases front with
          | nil =>
              have ends : ([] ++ symbol :: back).head?.all separates = true := isSeparator
              rw [extendTokens_start ends]
              rfl
          | cons next more =>
              cases nextSeparates : separates next with
              | true =>
                  have ends : (next :: more).head?.all separates = true := nextSeparates
                  have endsToo : (next :: more ++ symbol :: back).head?.all separates = true :=
                    nextSeparates
                  rw [extendTokens_start ends, extendTokens_start endsToo, List.cons_append]
              | false =>
                  have continues : (next :: more).head?.all separates = false := nextSeparates
                  have continuesToo : (next :: more ++ symbol :: back).head?.all separates = false :=
                    nextSeparates
                  rcases List.exists_cons_of_ne_nil (tokens_ne_nil nextSeparates more) with
                    ⟨token, others, inside⟩
                  rw [inside, extendTokens_continue continues]
                  exact extendTokens_continue continuesToo _ _

/-- Every token has a symbol, and none that separates. -/
theorem mem_tokens (member : word ∈ tokens separates text) :
    word ≠ [] ∧ ∀ symbol ∈ word, separates symbol = false := by
  induction text generalizing word with
  | nil => exact absurd member List.not_mem_nil
  | cons symbol rest hypothesis =>
      cases symbolSeparates : separates symbol with
      | true =>
          rw [tokens_separator symbolSeparates] at member
          exact hypothesis member
      | false =>
          rw [tokens_symbol symbolSeparates] at member
          have alone : ∀ other ∈ [symbol], separates other = false := by
            intro other isSymbol
            rw [List.mem_singleton.mp isSymbol]
            exact symbolSeparates
          cases inside : tokens separates rest with
          | nil =>
              rw [inside] at member
              rw [List.mem_singleton.mp member]
              exact ⟨List.cons_ne_nil _ _, alone⟩
          | cons token others =>
              rw [inside, extendTokens] at member
              rw [inside] at hypothesis
              split at member
              · rcases List.mem_cons.mp member with rfl | behind
                · exact ⟨List.cons_ne_nil _ _, alone⟩
                · exact hypothesis behind
              · rcases List.mem_cons.mp member with rfl | behind
                · refine ⟨List.cons_ne_nil _ _, fun other among => ?_⟩
                  rcases List.mem_cons.mp among with rfl | among
                  · exact symbolSeparates
                  · exact (hypothesis List.mem_cons_self).2 other among
                · exact hypothesis (List.mem_cons_of_mem _ behind)

theorem mem_takeWhile {keep : Symbol → Bool} (member : symbol ∈ text.takeWhile keep) :
    keep symbol = true :=
  (List.all_eq_true.mp List.all_takeWhile) symbol member

theorem head_dropWhile (separates : Symbol → Bool) (text : List Symbol) :
    (text.dropWhile (! separates ·)).head?.all separates = true := by
  have stops := List.head?_dropWhile_not (! separates ·) text
  cases found : (text.dropWhile (! separates ·)).head? with
  | none => rfl
  | some next =>
      rw [found] at stops
      simpa using stops

/-- `strtok` finds the tokens from the first one on. -/
theorem tokens_eq_strtok (text : List Symbol) :
    tokens separates text = match strtok separates text with
      | none => []
      | some (token, rest) => token :: tokens separates rest := by
  have allSeparate : ∀ symbol ∈ text.takeWhile separates, separates symbol = true :=
    fun symbol member => mem_takeWhile member
  have skipped := tokens_skip allSeparate (text.dropWhile separates)
  rw [List.takeWhile_append_dropWhile] at skipped
  rw [skipped, strtok]
  cases dropped : text.dropWhile separates with
  | nil => rfl
  | cons symbol rest =>
      have notSeparator : separates symbol = false := by
        have head := List.head?_dropWhile_not separates text
        rw [dropped] at head
        simpa using head
      have behind : tokens separates (rest.dropWhile (! separates ·)) =
          tokens separates ((rest.dropWhile (! separates ·)).drop 1) := by
        have head := head_dropWhile separates rest
        cases ended : rest.dropWhile (! separates ·) with
        | nil => rfl
        | cons next more =>
            rw [ended] at head
            have isSeparator : separates next = true := head
            exact tokens_separator isSeparator more
      have noneSeparates : ∀ other ∈ symbol :: rest.takeWhile (! separates ·),
          separates other = false := by
        intro other member
        rcases List.mem_cons.mp member with rfl | inside
        · exact notSeparator
        · simpa using mem_takeWhile inside
      have found := tokens_word (List.cons_ne_nil _ _) noneSeparates (head_dropWhile separates rest)
      rw [List.cons_append, List.takeWhile_append_dropWhile] at found
      rw [found, behind]

end Apue.Foundation
