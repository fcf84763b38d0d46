import MetricLayer.Proofs.Context.Steps
import MetricLayer.Settings

/-!
# The algebra of the time transforms

With time keys that settings accept, year-to-date and prior period can be applied in either order,
which is what the third built-in transform does, and year-to-date a second time does nothing. The
one changes no more than the period and the other no more than the year.
-/

namespace MetricLayer

theorem Settings.validate_eq_ok_iff {settings accepted : Settings} :
    settings.validate = .ok accepted ↔
      accepted = settings ∧ settings.time.year ≠ "" ∧ settings.time.period ≠ "" ∧
        settings.time.year ≠ settings.time.period := by
  rw [validate]
  split
  · rename_i hempty
    refine iff_of_false (fun h => by cases h) ?_
    rintro ⟨-, hyear, hperiod, -⟩
    exact hempty.elim hyear hperiod
  · rename_i hfull
    rw [not_or] at hfull
    split
    · rename_i hequal
      exact iff_of_false (fun h => by cases h) fun h => h.2.2.2 hequal
    · rename_i hdiffer
      rw [Except.ok.injEq]
      exact ⟨fun h => ⟨h.symm, hfull.1, hfull.2, hdiffer⟩, fun h => h.1.symm⟩

namespace Context

variable {dimension : String} {keys : TimeKeys}

theorem get?_yearToDate_of_ne (context : Context) (h : dimension ≠ keys.period) :
    (yearToDate keys context).get? dimension = context.get? dimension := by
  rw [yearToDate_eq_stepped]
  split
  · exact get?_stepped_of_ne _ context h
  · rfl

theorem get?_priorPeriod_of_ne (context : Context) (h : dimension ≠ keys.year) :
    (priorPeriod keys context).get? dimension = context.get? dimension := by
  rw [priorPeriod_eq_stepped]
  exact get?_stepped_of_ne _ context h

theorem keys_yearToDate (keys : TimeKeys) (context : Context) :
    (yearToDate keys context).keys = context.keys := by
  rw [yearToDate_eq_stepped]
  split
  · exact keys_stepped _ _ context
  · rfl

theorem keys_priorPeriod (keys : TimeKeys) (context : Context) :
    (priorPeriod keys context).keys = context.keys := by
  rw [priorPeriod_eq_stepped]
  exact keys_stepped _ _ context

end Context

namespace Transforms

open Context

theorem get?_builtin (keys : TimeKeys) :
    (builtin keys).get? "ytd" = some (yearToDate keys) ∧
      (builtin keys).get? "prior_period" = some (priorPeriod keys) ∧
        (builtin keys).get? "ytd_prior_period" =
          some fun context => yearToDate keys (priorPeriod keys context) := by
  rw [builtin, KeyMap.get?_ofList, KeyMap.get?_ofList, KeyMap.get?_ofList]
  exact ⟨rfl, rfl, rfl⟩

/-- **The built-in transforms compose.** For time keys that settings accept: year-to-date is
idempotent, it commutes with prior period, and the third transform is their composition. Neither of
the two adds or removes a dimension or changes any but its own. -/
theorem builtin_compose {settings accepted : Settings} (h : settings.validate = .ok accepted) :
    (builtin accepted.time).get? "ytd" = some (yearToDate accepted.time) ∧
      (builtin accepted.time).get? "prior_period" = some (priorPeriod accepted.time) ∧
        ∃ both, (builtin accepted.time).get? "ytd_prior_period" = some both ∧
          ∀ context : Context,
            yearToDate accepted.time (yearToDate accepted.time context) =
                yearToDate accepted.time context ∧
              yearToDate accepted.time (priorPeriod accepted.time context) = both context ∧
              priorPeriod accepted.time (yearToDate accepted.time context) = both context ∧
              (∀ dimension, dimension ≠ accepted.time.period →
                (yearToDate accepted.time context).get? dimension = context.get? dimension) ∧
              (∀ dimension, dimension ≠ accepted.time.year →
                (priorPeriod accepted.time context).get? dimension = context.get? dimension) ∧
              (yearToDate accepted.time context).keys = context.keys ∧
              (priorPeriod accepted.time context).keys = context.keys := by
  obtain ⟨rfl, -, -, hne⟩ := Settings.validate_eq_ok_iff.mp h
  obtain ⟨hytd, hprior, hboth⟩ := get?_builtin accepted.time
  refine ⟨hytd, hprior, _, hboth, fun context => ⟨yearToDate_yearToDate _ context, rfl, ?_, ?_, ?_,
    keys_yearToDate _ context, keys_priorPeriod _ context⟩⟩
  · exact (yearToDate_priorPeriod hne context).symm
  · exact fun dimension hdimension => get?_yearToDate_of_ne context hdimension
  · exact fun dimension hdimension => get?_priorPeriod_of_ne context hdimension

/-- A year that does not begin in January. -/
def fiscal : Settings := { Settings.standard with time := ⟨"fiscal_year", "fiscal_month"⟩ }

theorem builtin_compose_fiscal :
    fiscal.validate = .ok fiscal ∧
      ∃ both, (builtin fiscal.time).get? "ytd_prior_period" = some both ∧
        ∀ context : Context,
          yearToDate fiscal.time (priorPeriod fiscal.time context) = both context ∧
            priorPeriod fiscal.time (yearToDate fiscal.time context) = both context := by
  have hvalid : fiscal.validate = .ok fiscal :=
    Settings.validate_eq_ok_iff.mpr ⟨rfl, by decide, by decide, by decide⟩
  obtain ⟨-, -, both, hboth, hcompose⟩ := builtin_compose hvalid
  exact ⟨hvalid, both, hboth, fun context =>
    ⟨(hcompose context).2.1, (hcompose context).2.2.1⟩⟩

end Transforms

end MetricLayer
