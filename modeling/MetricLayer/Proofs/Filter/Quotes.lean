import MetricLayer.Proofs.Filter.Grammar

/-!
# Quoted values

Quotes around a value keep it a string whatever stands between them: blanks, operators, digits and
other quotes. Two dots are the exception. An equality is cut into an interval before the quotes are
looked at, and then each quote belongs to an end of the interval.
-/

namespace MetricLayer.Expression

open Text

variable {key content before after first last : List Char} {quote : Char}

def quoted (quote : Char) (content : List Char) : List Char := quote :: (content ++ [quote])

theorem isQuote_iff : Value.isQuote quote = true ↔ quote = '"' ∨ quote = '\'' := by
  rw [Value.isQuote, Bool.or_eq_true, decide_eq_true_eq, decide_eq_true_eq]

theorem isBlank_quote (h : Value.isQuote quote = true) : isBlank quote = false := by
  rcases isQuote_iff.mp h with rfl | rfl <;> decide

theorem getLast?_quoted (quote : Char) (content : List Char) :
    (quoted quote content).getLast? = some quote := by
  rw [quoted, ← List.cons_append, List.getLast?_concat]

theorem trimmed_quoted (h : Value.isQuote quote = true) : Trimmed (quoted quote content) := by
  constructor
  · intro c hc
    obtain rfl := Option.some.inj hc
    exact isBlank_quote h
  · intro c hc
    rw [getLast?_quoted] at hc
    obtain rfl := Option.some.inj hc
    exact isBlank_quote h

theorem readValue_quoted (h : Value.isQuote quote = true) :
    readValue (quoted quote content) = .string (String.ofList content) := by
  have hunquote : unquote? (quoted quote content) = some content := by
    rw [quoted, unquote?, List.getLast?_concat, List.dropLast_concat, if_pos ⟨h, rfl⟩]
  rw [readValue, hunquote]

theorem dots_not_isPrefix (h : Value.isQuote quote = true) (text : List Char) :
    ¬ dots <+: quote :: text := by
  intro hprefix
  obtain rfl := (List.cons_prefix_cons.mp hprefix).1
  exact absurd h (by decide)

theorem getLast?_dots_ne (h : Value.isQuote quote = true) : dots.getLast? ≠ some quote := by
  rintro hlast
  obtain rfl := Option.some.inj hlast
  exact absurd h (by decide)

/-- No two dots come from the quotes. -/
theorem dots_isInfix_quoted_iff (h : Value.isQuote quote = true) :
    dots <:+: quoted quote content ↔ dots <:+: content := by
  rw [quoted, List.infix_cons_iff, isInfix_concat_iff dots_ne_nil (getLast?_dots_ne h)]
  exact or_iff_right (dots_not_isPrefix h _)

theorem firstCut_quoted (h : Value.isQuote quote = true)
    (hcut : FirstCut dots content before after) :
    FirstCut dots (quoted quote content) (quote :: before) (after ++ [quote]) :=
  (hcut.concat dots_ne_nil (getLast?_dots_ne h)).cons (dots_not_isPrefix h _)

theorem shaped_quoted (hkey : IsKey key) (operator : Operator) (h : Value.isQuote quote = true)
    (hline : '\n' ∉ content) :
    Shaped (key ++ (operator.symbol ++ quoted quote content)) key operator
      (quoted quote content) := by
  have hquote : quote ≠ '\n' ∧ quote ≠ '=' := by
    rcases isQuote_iff.mp h with rfl | rfl <;> decide
  refine ⟨hkey, ?_, [], [], quoted quote content, by decide, by decide, ?_,
    trimsTo_self (trimmed_quoted h), rfl⟩
  · rw [quoted, List.mem_cons, List.mem_append, List.mem_singleton, not_or, not_or]
    exact ⟨hquote.1.symm, hline, hquote.1.symm⟩
  · exact operator.leads_append_iff.mpr fun _ hhead => hquote.2 (Option.some.inj hhead)

/-- **Quotes keep a string, but for two dots in an equality.** A quoted value without line feeds is
read as the string between the quotes, by each operator, just when the operator is no equality or
the string has no two dots in a row. Otherwise the expression is an interval, from the value before
the first two dots with the quote in front to the one behind them with the quote at its end. -/
theorem parse_quoted_iff (hkey : IsKey key) (operator : Operator)
    (hquote : quote = '"' ∨ quote = '\'') (hline : '\n' ∉ content) :
    (parse (String.ofList (key ++ (operator.symbol ++ quoted quote content))) =
        .ok (String.ofList key, operator.build (.string (String.ofList content))) ↔
      (operator = .equal → ¬ dots <:+: content)) ∧
      ∀ before after first last, operator = .equal → FirstCut dots content before after →
        TrimsTo (quote :: before) first → TrimsTo (after ++ [quote]) last →
          parse (String.ofList (key ++ (operator.symbol ++ quoted quote content))) =
            .ok (String.ofList key, .range (.between (readValue first) (readValue last))) := by
  have h := isQuote_iff.mpr hquote
  generalize hexpression : String.ofList (key ++ (operator.symbol ++ quoted quote content)) =
    expression
  have hshape : Shaped expression.toList key operator (quoted quote content) := by
    rw [← hexpression, String.toList_ofList]
    exact shaped_quoted hkey operator h hline
  have hinterval : ∀ before after first last, operator = .equal →
      FirstCut dots content before after → TrimsTo (quote :: before) first →
        TrimsTo (after ++ [quote]) last → parse expression =
          .ok (String.ofList key, .range (.between (readValue first) (readValue last))) := by
    rintro before after first last rfl hcut hfirst hlast
    exact parse_of_denotes (.interval hshape (firstCut_quoted h hcut) hfirst hlast
      (hfirst.ne_nil List.mem_cons_self (isBlank_quote h))
      (hlast.ne_nil List.mem_concat_self (isBlank_quote h)))
  refine ⟨⟨?_, fun hwhole => ?_⟩, hinterval⟩
  · rintro hparse rfl hdots
    cases hcut : cutAt dots content with
    | none => exact (cutAt_eq_none_iff dots_ne_nil).mp hcut hdots
    | some cut =>
        have hrange := hinterval cut.1 cut.2 _ _ rfl ((cutAt_eq_some_iff dots_ne_nil).mp hcut)
          (trimsTo_trimChars _) (trimsTo_trimChars _)
        rw [hparse] at hrange
        cases hrange
  · rw [← readValue_quoted h]
    refine parse_of_denotes (.single hshape (List.cons_ne_nil _ _) fun hequal => ?_)
    rw [dots_isInfix_quoted_iff h]
    exact hwhole hequal

/-- The bound is the string between the quotes, and the equality is an interval from a to b. -/
theorem parse_quoted_iff_aToB :
    parse "code>=\"a..b\"" = .ok ("code", .range (.atLeast (.string "a..b"))) ∧
      parse "code=\"a..b\"" ≠ .ok ("code", .equals (.string "a..b")) ∧
      parse "code=\"a..b\"" = .ok ("code", .range (.between (.string "a") (.string "b"))) := by
  have hkey : IsKey "code".toList := by decide
  have hdots : FirstCut dots "a..b".toList ['a'] ['b'] := (cutAt_eq_some_iff dots_ne_nil).mp rfl
  have hline : '\n' ∉ "a..b".toList := by decide
  obtain ⟨hbound, -⟩ := parse_quoted_iff hkey .atLeast (.inl rfl) hline
  obtain ⟨hequal, hinterval⟩ := parse_quoted_iff hkey .equal (.inl rfl) hline
  refine ⟨hbound.mpr (fun h => by cases h), fun h => hequal.mp h rfl hdots.isInfix, ?_⟩
  exact hinterval ['a'] ['b'] ['"', 'a'] ['b', '"'] rfl hdots
    (trimsTo_self (by decide)) (trimsTo_self (by decide))

end MetricLayer.Expression
