import RelationalDesign.SchemeText.Reading

/-!
# Readers of phrases

A phrase has tokens, and what is behind it must not be taken for a part of it. A reader takes
the phrases of a kind if it reads each of them in front of what ends it, and nothing else, and
if different phrases have different tokens (`Reads`).

Since a reader leaves one rest, there is one way to cut a phrase from the front of tokens
(`Reads.separable`). So there is also one way to cut tokens into a sequence of phrases
(`Separable.flatMap`). A block is read as its phrases up to the closing brace
(`ReadsBlock.accepts`).
-/

set_option autoImplicit false

namespace RelationalDesign.SchemeText

/-! ## Phrases in a row -/

section Separable

variable {Phrase : Type} (tokens : Phrase → List Token) (ends : Phrase → List Token → Prop)

/-- Phrases can be told apart at the front of tokens, if what is behind them ends them. -/
structure Separable : Prop where
  cut : ∀ {first second : Phrase} {rest other : List Token}, ends first rest → ends second other →
    tokens first ++ rest = tokens second ++ other → first = second ∧ rest = other

/-- Each phrase of a sequence is ended by what is behind it, with a tail behind the last one. -/
def EndsWell (tail : List Token) : List Phrase → Prop
  | [] => True
  | phrase :: later => ends phrase (later.flatMap tokens ++ tail) ∧ EndsWell tail later

variable {tokens ends} {tail other : List Token}

/-- Where anything ends a phrase, every sequence ends well. -/
theorem endsWell_of_forall (always : ∀ phrase rest, ends phrase rest) (phrases : List Phrase) :
    EndsWell tokens ends tail phrases := by
  induction phrases with
  | nil => trivial
  | cons phrase later ih => exact ⟨always _ _, ih⟩

/-- **Sequences of phrases can be told apart** in front of tails that no phrase begins. -/
theorem Separable.flatMap (separable : Separable tokens ends)
    (notTail : ∀ phrase rest, tail ≠ tokens phrase ++ rest)
    (notOther : ∀ phrase rest, other ≠ tokens phrase ++ rest) {phrases others : List Phrase}
    (endsWell : EndsWell tokens ends tail phrases) (otherWell : EndsWell tokens ends other others)
    (same : phrases.flatMap tokens ++ tail = others.flatMap tokens ++ other) :
    phrases = others ∧ tail = other := by
  induction phrases generalizing others with
  | nil =>
    cases others with
    | nil => exact ⟨rfl, same⟩
    | cons next rest =>
      rw [List.flatMap_cons, List.append_assoc] at same
      exact absurd same (notTail next _)
  | cons phrase later ih =>
    rw [List.flatMap_cons, List.append_assoc] at same
    cases others with
    | nil => exact absurd same.symm (notOther phrase _)
    | cons next rest =>
      rw [List.flatMap_cons, List.append_assoc] at same
      obtain ⟨rfl, behind⟩ := separable.cut endsWell.1 otherWell.1 same
      obtain ⟨rfl, tails⟩ := ih endsWell.2 otherWell.2 behind
      exact ⟨rfl, tails⟩

/-- Sequences of phrases that anything ends have different tokens. -/
theorem Separable.flatMap_injective (separable : Separable tokens ends)
    (always : ∀ phrase rest, ends phrase rest) (nonempty : ∀ phrase, tokens phrase ≠ []) :
    Function.Injective fun phrases : List Phrase => phrases.flatMap tokens := by
  intro first second same
  have notNil (phrase : Phrase) (rest : List Token) : [] ≠ tokens phrase ++ rest :=
    fun noTokens => nonempty phrase (List.append_eq_nil_iff.1 noTokens.symm).1
  refine (separable.flatMap notNil notNil (endsWell_of_forall always first)
    (endsWell_of_forall always second) ?_).1
  rw [List.append_nil, List.append_nil]
  exact same

/-- Blocks of phrases have different tokens, if no phrase begins with the closing brace. -/
theorem Separable.block_inj (separable : Separable tokens ends)
    (begins : ∀ phrase, ∃ token rest, tokens phrase = token :: rest ∧ token ≠ .closeBrace)
    {phrases others : List Phrase} (endsWell : EndsWell tokens ends [.closeBrace] phrases)
    (otherWell : EndsWell tokens ends [.closeBrace] others)
    (same : phrases.flatMap tokens ++ [.closeBrace] = others.flatMap tokens ++ [.closeBrace]) :
    phrases = others := by
  have notClose (phrase : Phrase) (rest : List Token) : [.closeBrace] ≠ tokens phrase ++ rest := by
    obtain ⟨token, more, shape, other⟩ := begins phrase
    rw [shape, List.cons_append]
    exact fun same => other (List.cons.inj same).1.symm
  exact (separable.flatMap notClose notClose endsWell otherWell same).1

end Separable

/-! ## Readers of phrases -/

/-- A reader takes the phrases of a kind, each with its value, where what is behind ends them, and
nothing else. Different phrases have different tokens. -/
structure Reads {Phrase Value : Type} (read : List Token → Except ReadError (Value × List Token))
    (tokens : Phrase → List Token) (value : Phrase → Value)
    (ends : Phrase → List Token → Prop) : Prop where
  accepts : ∀ {input : List Token} {result : Value} {rest : List Token},
    read input = .ok (result, rest) ↔
      ∃ phrase, input = tokens phrase ++ rest ∧ result = value phrase ∧ ends phrase rest
  injective : Function.Injective tokens

section Reads

variable {Phrase Value : Type} {read : List Token → Except ReadError (Value × List Token)}
  {tokens : Phrase → List Token} {value : Phrase → Value} {ends : Phrase → List Token → Prop}

theorem Reads.read_append (reads : Reads read tokens value ends) {phrase : Phrase}
    {rest : List Token} (ended : ends phrase rest) :
    read (tokens phrase ++ rest) = .ok (value phrase, rest) :=
  reads.accepts.2 ⟨phrase, rfl, rfl, ended⟩

/-- **There is one way to cut a phrase off**, since its reader leaves one rest. -/
theorem Reads.separable (reads : Reads read tokens value ends) : Separable tokens ends where
  cut := by
    intro first second rest other ended otherEnded same
    have once := reads.read_append ended
    have again := reads.read_append otherEnded
    rw [same, again] at once
    obtain rfl : other = rest := (Prod.mk.inj (Except.ok.inj once)).2
    exact ⟨reads.injective (List.append_cancel_right same), rfl⟩

/-- What a reader of entries or relationships does: up to the closing brace it reads one after
the other. -/
structure ReadsBlock (read : List Token → Except ReadError (Value × List Token))
    (readAll : List Token → Except ReadError (List Value × List Token)) : Prop where
  unclosed : ∀ result, readAll [] ≠ .ok result
  closed : ∀ rest, readAll (.closeBrace :: rest) = .ok ([], rest)
  cons : ∀ {token : Token} {tail : List Token} {result : List Value × List Token},
    token ≠ .closeBrace →
    (readAll (token :: tail) = .ok result ↔
      ∃ first rest, read (token :: tail) = .ok (first, rest) ∧
        ∃ others after, readAll rest = .ok (others, after) ∧ result = (first :: others, after))

/-- **A block reads as its phrases**, if none of them begins with the closing brace. -/
theorem ReadsBlock.accepts {readAll : List Token → Except ReadError (List Value × List Token)}
    (block : ReadsBlock read readAll) (reads : Reads read tokens value ends)
    (begins : ∀ phrase, ∃ token rest, tokens phrase = token :: rest ∧ token ≠ .closeBrace)
    {input : List Token} {result : List Value} {rest : List Token} :
    readAll input = .ok (result, rest) ↔
      ∃ phrases, input = phrases.flatMap tokens ++ .closeBrace :: rest ∧
        result = phrases.map value ∧ EndsWell tokens ends (.closeBrace :: rest) phrases := by
  constructor
  · -- a phrase takes at least one token, so the rest is shorter
    induction input using WellFounded.induction (measure List.length).wf generalizing result with
    | _ input ih =>
    intro readInput
    cases input with
    | nil => exact absurd readInput (block.unclosed _)
    | cons token tail =>
      by_cases closes : token = .closeBrace
      · rw [closes, block.closed] at readInput
        cases readInput
        exact ⟨[], closes ▸ rfl, rfl, trivial⟩
      · obtain ⟨first, behind, readFirst, others, after, readOthers, equal⟩ :=
          (block.cons closes).1 readInput
        cases equal
        obtain ⟨phrase, place, rfl, ended⟩ := reads.accepts.1 readFirst
        have shorter : behind.length < (token :: tail).length := by
          obtain ⟨head, more, shape, _⟩ := begins phrase
          rw [place, shape, List.cons_append, List.length_cons, List.length_append]
          omega
        obtain ⟨phrases, rfl, rfl, endsWell⟩ := ih behind shorter readOthers
        refine ⟨phrase :: phrases, ?_, rfl, ended, endsWell⟩
        rw [place, List.flatMap_cons, List.append_assoc]
  · rintro ⟨phrases, rfl, rfl, endsWell⟩
    induction phrases with
    | nil => exact block.closed rest
    | cons phrase later ih =>
      have readFirst := reads.read_append endsWell.1
      obtain ⟨token, more, shape, notClose⟩ := begins phrase
      rw [List.flatMap_cons, List.append_assoc]
      rw [shape, List.cons_append] at readFirst ⊢
      exact (block.cons notClose).2 ⟨_, _, readFirst, _, rest, ih endsWell.2, rfl⟩

end Reads

end RelationalDesign.SchemeText
