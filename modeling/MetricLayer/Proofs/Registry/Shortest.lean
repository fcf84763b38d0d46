import MetricLayer.Proofs.Registry.Search
import Mathlib.Data.List.Shortlex
import Mathlib.Data.String.Basic

/-!
# The breadth-first search finds the least way

If all successor lists are sorted, the queue of the search is: ways stand in it by length, and ways
of one length in lexical order. Each queued way is the least one to its name, as the last step but
one of a smaller way would have been queued before. So the way that is found comes before all other
ways to the target.
-/

namespace MetricLayer.Graph

/-- A way from the start, its last name first. -/
inductive IsWay (next : Successors) (start : String) : List String → Prop where
  | start : IsWay next start [start]
  | step {name other : String} {way : List String} (h : IsWay next start (name :: way))
      (hedge : Edge next name other) : IsWay next start (other :: name :: way)

/-- Of two ways, last names first, this one is shorter, or as long and comes first in lexical
order. -/
def Earlier (way other : List String) : Prop :=
  List.Shortlex (· < ·) way.reverse other.reverse

variable {next : Successors} {start target name : String} {way other : List String}

namespace Earlier

theorem of_length_lt (h : way.length < other.length) : Earlier way other :=
  List.Shortlex.of_length_lt (by simpa using h)

theorem trans {third : List String} (h : Earlier way other) (hother : Earlier other third) :
    Earlier way third := by
  rw [Earlier, List.shortlex_def] at *
  rcases h with h | ⟨hlength, h⟩
  · rcases hother with hother | ⟨hlength', _⟩
    · exact .inl (h.trans hother)
    · exact .inl (hlength' ▸ h)
  · rcases hother with hother | ⟨hlength', hother⟩
    · exact .inl (hlength ▸ hother)
    · exact .inr ⟨hlength.trans hlength', List.lt_trans h hother⟩

/-- Ways that differ in their order go on to differ in it. -/
theorem cons (h : Earlier way other) (name last : String) :
    Earlier (name :: way) (last :: other) := by
  have hconcat : ∀ {first second : List String}, List.Lex (· < ·) first second →
      first.length = second.length → List.Lex (· < ·) (first ++ [name]) (second ++ [last]) := by
    intro first second hlex
    induction hlex with
    | nil => exact fun hlength => absurd hlength (by simp)
    | cons hrest ih => exact fun hlength => .cons (ih (by simpa using hlength))
    | rel hless => exact fun _ => .rel hless
  rw [Earlier, List.shortlex_def] at *
  rw [List.reverse_cons, List.reverse_cons, List.length_append, List.length_append]
  rcases h with h | ⟨hlength, h⟩
  · exact .inl (Nat.add_lt_add_right h 1)
  · exact .inr ⟨by rw [hlength]; rfl, hconcat h hlength⟩

theorem cons_of_lt {first second : String} (h : first < second) (way : List String) :
    Earlier (first :: way) (second :: way) := by
  rw [Earlier, List.reverse_cons, List.reverse_cons]
  exact List.Shortlex.append_left ((List.shortlex_singleton_iff first second).mpr h) way.reverse

end Earlier

theorem pairwise_unseen {names : List String} (h : names.Pairwise (· < ·)) (seen : List String) :
    (unseen seen names).Pairwise (· < ·) :=
  (h.filter _).sublist (eraseDups_sublist _)

/-- The queue of a search from the start: its ways are least, and they are in order. The way that a
queued way goes on from was left before, so it comes before all that are queued. -/
structure Ordered (next : Successors) (start : String) (queue : List (List String))
    (seen : List String) : Prop where
  start_mem : start ∈ seen
  ways : ∀ way ∈ queue, IsWay next start way
  nodup : ∀ way ∈ queue, way.Nodup
  met : ∀ way ∈ queue, ∀ name ∈ way, name ∈ seen
  sorted : queue.Pairwise Earlier
  parents : ∀ way ∈ queue, ∀ other ∈ queue, Earlier way.tail other
  least : ∀ way ∈ queue, ∀ other, IsWay next start other → other.head? = way.head? →
    way = other ∨ Earlier way other

theorem ordered_start (next : Successors) (start : String) :
    Ordered next start [[start]] [start] where
  start_mem := List.mem_singleton_self start
  ways := by simpa using IsWay.start
  nodup := by simp
  met := by simp
  sorted := List.pairwise_singleton _ _
  parents := by simpa using Earlier.of_length_lt (by simp)
  least := by
    intro way hway other hother hhead
    obtain rfl := List.mem_singleton.mp hway
    cases hother with
    | start => exact .inl rfl
    | step h hedge => exact .inr (.of_length_lt (by simp))

section Run

variable {scope left seen : List String} {queue : List (List String)}

theorem Searching.exists_queued (hsearch : Searching next target scope left queue seen)
    (hseen : name ∈ seen) (hleft : name ∉ left) : ∃ queued ∈ queue, queued.head? = some name := by
  have hends := ((hsearch.seen_eq name).mp hseen).resolve_left hleft
  exact List.mem_filterMap.mp hends

/-- A way to a name that has not been left is queued or comes after one that is. -/
theorem Ordered.exists_earlier (h : Ordered next start queue seen)
    (hsearch : Searching next target scope left queue seen) (hway : IsWay next start way)
    (hhead : way.head? = some name) (hleft : name ∉ left) :
    ∃ queued ∈ queue, queued = way ∨ Earlier queued way := by
  induction hway generalizing name with
  | start =>
      obtain rfl := Option.some.inj hhead
      obtain ⟨queued, hmem, hsame⟩ := hsearch.exists_queued h.start_mem hleft
      exact ⟨queued, hmem, h.least queued hmem _ .start hsame.symm⟩
  | @step source other way hway hedge ih =>
      obtain rfl := Option.some.inj hhead
      by_cases hseen : other ∈ seen
      · obtain ⟨queued, hmem, hsame⟩ := hsearch.exists_queued hseen hleft
        exact ⟨queued, hmem, h.least queued hmem _ (.step hway hedge) hsame.symm⟩
      · -- A name left before has had its successors seen, so the last step but one is queued.
        have hsource : source ∉ left := fun hmem =>
          hseen ((hsearch.settled source hmem).2 other hedge)
        obtain ⟨queued, hmem, hqueued⟩ := ih rfl hsource
        have hshort : Earlier (source :: way) (other :: source :: way) := .of_length_lt (by simp)
        refine ⟨queued, hmem, .inr ?_⟩
        rcases hqueued with rfl | hqueued
        · exact hshort
        · exact hqueued.trans hshort

/-- The first of the queue comes before all ways to names that have not been left. -/
theorem Ordered.head_least (h : Ordered next start (way :: queue) seen)
    (hsearch : Searching next target scope left (way :: queue) seen)
    (hother : IsWay next start other) (hhead : other.head? = some name) (hleft : name ∉ left) :
    way = other ∨ Earlier way other := by
  obtain ⟨queued, hmem, hqueued⟩ := h.exists_earlier hsearch hother hhead hleft
  rcases List.mem_cons.mp hmem with rfl | hmem
  · exact hqueued
  · have hfirst : Earlier way queued := List.rel_of_pairwise_cons h.sorted hmem
    rcases hqueued with rfl | hqueued
    · exact .inr hfirst
    · exact .inr (hfirst.trans hqueued)

/-- A way that goes on to a name that no name left before has a step to comes after the first of
the queue and the same step. -/
theorem Ordered.cons_least {last : String} (h : Ordered next start ((name :: way) :: queue) seen)
    (hsearch : Searching next target scope left ((name :: way) :: queue) seen)
    (hlast : ∀ source ∈ left, ¬ Edge next source last) (hne : other ≠ [])
    (hother : IsWay next start (last :: other)) :
    last :: name :: way = last :: other ∨ Earlier (last :: name :: way) (last :: other) := by
  cases hother with
  | start => exact absurd rfl hne
  | @step source _ rest hrest hedge =>
      rcases h.head_least hsearch hrest rfl (fun hmem => hlast source hmem hedge) with
        hsame | hearlier
      · exact .inl (congrArg _ hsame)
      · exact .inr (hearlier.cons last last)

theorem Ordered.leave (hsorted : (next name).Pairwise (· < ·))
    (h : Ordered next start ((name :: way) :: queue) seen)
    (hsearch : Searching next target scope left ((name :: way) :: queue) seen) :
    Ordered next start (queue ++ (unseen seen (next name)).map (· :: name :: way))
      (seen ++ unseen seen (next name)) := by
  have hfirst : ∀ queued ∈ queue, Earlier (name :: way) queued := fun queued hmem =>
    List.rel_of_pairwise_cons h.sorted hmem
  have hlonger : ∀ other, Earlier (name :: way) (other :: name :: way) := fun other =>
    .of_length_lt (by simp)
  have hmet := h.met (name :: way) List.mem_cons_self
  constructor
  case start_mem => exact List.mem_append_left _ h.start_mem
  case ways =>
    intro other hmem
    rcases List.mem_append.mp hmem with hold | hnew
    · exact h.ways other (List.mem_cons_of_mem _ hold)
    · obtain ⟨head, hhead, rfl⟩ := List.mem_map.mp hnew
      exact .step (h.ways _ List.mem_cons_self) (mem_unseen.mp hhead).1
  case nodup =>
    intro other hmem
    rcases List.mem_append.mp hmem with hold | hnew
    · exact h.nodup other (List.mem_cons_of_mem _ hold)
    · obtain ⟨head, hhead, rfl⟩ := List.mem_map.mp hnew
      exact List.nodup_cons.mpr ⟨fun hin => (mem_unseen.mp hhead).2 (hmet head hin),
        h.nodup _ List.mem_cons_self⟩
  case met =>
    intro other hmem known hknown
    rcases List.mem_append.mp hmem with hold | hnew
    · exact List.mem_append_left _ (h.met other (List.mem_cons_of_mem _ hold) known hknown)
    · obtain ⟨head, hhead, rfl⟩ := List.mem_map.mp hnew
      rcases List.mem_cons.mp hknown with rfl | hknown
      · exact List.mem_append_right _ hhead
      · exact List.mem_append_left _ (hmet known hknown)
  case sorted =>
    rw [List.pairwise_append, List.pairwise_map]
    refine ⟨h.sorted.of_cons, (pairwise_unseen hsorted seen).imp (Earlier.cons_of_lt · _), ?_⟩
    intro old hold new hnew
    obtain ⟨head, _, rfl⟩ := List.mem_map.mp hnew
    cases old with
    | nil => exact .of_length_lt (by simp)
    | cons last rest =>
        exact (h.parents _ (List.mem_cons_of_mem _ hold) _ List.mem_cons_self).cons last head
  case parents =>
    intro first hmem second hmem'
    rcases List.mem_append.mp hmem with hold | hnew <;>
      rcases List.mem_append.mp hmem' with hold' | hnew'
    · exact h.parents first (List.mem_cons_of_mem _ hold) second (List.mem_cons_of_mem _ hold')
    · obtain ⟨head, _, rfl⟩ := List.mem_map.mp hnew'
      exact (h.parents first (List.mem_cons_of_mem _ hold) _ List.mem_cons_self).trans
        (hlonger head)
    · obtain ⟨head, _, rfl⟩ := List.mem_map.mp hnew
      exact hfirst second hold'
    · obtain ⟨head, _, rfl⟩ := List.mem_map.mp hnew
      obtain ⟨head', _, rfl⟩ := List.mem_map.mp hnew'
      exact hlonger head'
  case least =>
    intro first hmem second hsecond hhead
    rcases List.mem_append.mp hmem with hold | hnew
    · exact h.least first (List.mem_cons_of_mem _ hold) second hsecond hhead
    · obtain ⟨head, hunseen, rfl⟩ := List.mem_map.mp hnew
      obtain ⟨rest, rfl⟩ : ∃ rest, second = head :: rest := by
        cases second with
        | nil => cases hhead
        | cons last rest => exact ⟨rest, by rw [Option.some.inj hhead]⟩
      have hunmet := (mem_unseen.mp hunseen).2
      refine h.cons_least hsearch (fun source hleft hedge => ?_) ?_ hsecond
      · exact hunmet ((hsearch.settled source hleft).2 head hedge)
      · rintro rfl
        cases hsecond
        exact hunmet h.start_mem

/-- Of all ways to the target, this one comes first. -/
structure LeastWay (next : Successors) (start target : String) (way : List String) : Prop where
  nonempty : way ≠ []
  isWay : IsWay next start (target :: way)
  nodup : way.Nodup
  least : ∀ other ≠ [], IsWay next start (target :: other) →
    target :: way = target :: other ∨ Earlier (target :: way) (target :: other)

/-- What a search finds is the least way to its target. -/
theorem leastWay_of_search? (hsorted : ∀ name, (next name).Pairwise (· < ·))
    (hscope : ∀ name ∈ scope, ∀ other ∈ next name, other ∈ scope) (bound : Nat) :
    ∀ (left : List String) (queue : List (List String)) (seen path : List String),
      Ordered next start queue seen → Searching next target scope left queue seen →
      search? next target bound queue seen = some path →
      ∃ way, path = (target :: way).reverse ∧ LeastWay next start target way := by
  induction bound with
  | zero =>
      intro left queue seen path _ _ hsome
      cases hsome
  | succ bound ih =>
      intro left queue seen path h hsearch hsome
      cases queue with
      | nil => cases hsome
      | cons way queue =>
          cases way with
          | nil => exact absurd rfl (hsearch.nonempty [] List.mem_cons_self)
          | cons name way =>
              rw [search?_cons] at hsome
              split at hsome
              · rename_i hhit
                have hedge : Edge next name target := List.contains_iff_mem.mp hhit
                exact ⟨name :: way, (Option.some.inj hsome).symm, List.cons_ne_nil _ _,
                  .step (h.ways _ List.mem_cons_self) hedge, h.nodup _ List.mem_cons_self,
                  fun other => h.cons_least hsearch fun source hleft =>
                    (hsearch.settled source hleft).1⟩
              · rename_i hmiss
                exact ih _ _ _ path (h.leave (hsorted name) hsearch)
                  (hsearch.leave hscope (by simpa using hmiss)) hsome

end Run

end MetricLayer.Graph
