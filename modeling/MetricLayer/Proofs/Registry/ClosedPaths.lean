import MetricLayer.Proofs.Registry.Components
import MetricLayer.Proofs.Registry.Shortest
import Mathlib.Data.List.Chain

/-!
# Closed paths through a name

The path that is reported for a component is the least closed path from its first name: the search
is kept within the component, but no closed path from one of its names leaves it.
-/

namespace MetricLayer.Graph

open Relation

/-- A path of one step or more from a name back to it. -/
structure ClosedPath (step : String → String → Prop) (start : String) (path : List String) :
    Prop where
  chain : path.IsChain step
  long : 1 < path.length
  starts : path.head? = some start
  ends : path.getLast? = some start

/-- A closed path that repeats no name but its start. No closed path through the start is shorter,
and among those that are as long it comes first in lexical order. -/
structure LeastCycle (step : String → String → Prop) (start : String) (path : List String) : Prop
    extends ClosedPath step start path where
  simple : path.dropLast.Nodup
  shortest : ∀ name other, ClosedPath step name other → start ∈ other →
    path.length ≤ other.length
  first : ∀ other, ClosedPath step start other → other.length = path.length →
    path = other ∨ List.Lex (· < ·) path other

/-- The name is on a cycle and comes first in its component. -/
structure Leads (step : String → String → Prop) (start : String) : Prop where
  cyclic : TransGen step start start
  least : ∀ name, ReflTransGen step start name → ReflTransGen step name start → start ≤ name

variable {step : String → String → Prop} {start name : String} {path other : List String}

theorem Leads.eq_of_mutual (h : Leads step start) (hname : Leads step name)
    (hreach : ReflTransGen step start name) (hback : ReflTransGen step name start) :
    start = name :=
  le_antisymm (h.least name hreach hback) (hname.least start hback hreach)

namespace ClosedPath

theorem start_mem (h : ClosedPath step start path) : start ∈ path :=
  List.mem_of_head? h.starts

theorem exists_middle (h : ClosedPath step start path) :
    ∃ middle, path = start :: (middle ++ [start]) := by
  obtain ⟨rest, rfl⟩ := List.head?_eq_some_iff.mp h.starts
  have hne : rest ≠ [] := by
    rintro rfl
    exact absurd h.long (lt_irrefl 1)
  have hlast := h.ends
  rw [List.getLast?_cons, List.getLast?_eq_some_getLast hne, Option.getD_some] at hlast
  refine ⟨rest.dropLast, congrArg _ ?_⟩
  rw [← Option.some.inj hlast, List.dropLast_append_getLast]

/-- All names of a closed path are in the component of its start. -/
theorem reach (h : ClosedPath step start path) (hname : name ∈ path) :
    ReflTransGen step start name ∧ ReflTransGen step name start := by
  obtain ⟨middle, rfl⟩ := h.exists_middle
  constructor
  · exact h.chain.induction (ReflTransGen step start) _
      (fun _ _ hstep hreach => hreach.tail hstep) (fun _ => .refl) name hname
  · refine h.chain.backwards_induction (ReflTransGen step · start) _
      (fun _ _ hstep hreach => hreach.head hstep) (fun _ => ?_) name hname
    simpa using ReflTransGen.refl

/-- A name in the component of one name of a closed path is in that of its start. -/
theorem reach_start {member : String} (h : ClosedPath step start path) (hmember : member ∈ path)
    (hreach : ReflTransGen step name member) (hback : ReflTransGen step member name) :
    ReflTransGen step name start ∧ ReflTransGen step start name :=
  ⟨hreach.trans (h.reach hmember).2, (h.reach hmember).1.trans hback⟩

/-- A closed path can be started at any of its names. -/
theorem rotate (h : ClosedPath step name path) (hstart : start ∈ path) :
    ∃ other, ClosedPath step start other ∧ other.length = path.length := by
  by_cases hsame : start = name
  · exact ⟨path, hsame ▸ h, rfl⟩
  · obtain ⟨middle, rfl⟩ := h.exists_middle
    have hmem : start ∈ middle := by simpa [hsame] using hstart
    obtain ⟨before, after, rfl⟩ := List.append_of_mem hmem
    have hchain : ((name :: before) ++ start :: (after ++ [name])).IsChain step := by
      simpa using h.chain
    obtain ⟨hbefore, hafter⟩ := List.isChain_split.mp hchain
    refine ⟨(start :: after) ++ name :: (before ++ [start]), ⟨?_, ?_, rfl, ?_⟩, ?_⟩
    · exact List.isChain_split.mpr ⟨hafter, hbefore⟩
    · simp
    · simp [List.getLast?_cons]
    · simp only [List.length_append, List.length_cons, List.length_nil]
      omega

end ClosedPath

theorem LeastCycle.unique (h : LeastCycle step start path) (hother : LeastCycle step start other) :
    path = other := by
  have hlength : other.length = path.length :=
    le_antisymm (hother.shortest start path h.toClosedPath h.start_mem)
      (h.shortest start other hother.toClosedPath hother.start_mem)
  rcases h.first other hother.toClosedPath hlength with hsame | hless
  · exact hsame
  · rcases hother.first path h.toClosedPath hlength.symm with hsame | hgreater
    · exact hsame.symm
    · exact absurd hgreater (List.lt_asymm hless)

variable {next : Successors} {way names group : List String} {groups : List (List String)}

theorem Scope.mem_of_reflTransGen (h : Scope next names) (hstart : start ∈ names)
    (hreach : ReflTransGen (Edge next) start name) : name ∈ names := by
  induction hreach with
  | refl => exact hstart
  | tail _ hedge ih => exact h.closed _ ih _ hedge

theorem isWay_iff :
    IsWay next start way ↔ way.reverse.IsChain (Edge next) ∧ way.getLast? = some start := by
  rw [List.isChain_reverse]
  constructor
  · intro h
    induction h with
    | start => exact ⟨List.isChain_singleton _, rfl⟩
    | step h hedge ih =>
        exact ⟨List.isChain_cons_cons.mpr ⟨hedge, ih.1⟩, by simpa [List.getLast?_cons] using ih.2⟩
  · rintro ⟨hchain, hlast⟩
    induction way with
    | nil => cases hlast
    | cons name way ih =>
        cases way with
        | nil =>
            obtain rfl := Option.some.inj hlast
            exact .start
        | cons before way =>
            obtain ⟨hedge, hchain⟩ := List.isChain_cons_cons.mp hchain
            exact .step (ih hchain (by simpa [List.getLast?_cons] using hlast)) hedge

theorem closedPath_reverse_iff :
    ClosedPath (Edge next) start (start :: way).reverse ↔
      way ≠ [] ∧ IsWay next start (start :: way) := by
  rw [isWay_iff]
  constructor
  · intro h
    refine ⟨?_, h.chain, ?_⟩
    · rintro rfl
      exact absurd h.long (lt_irrefl 1)
    · rw [← List.head?_reverse]
      exact h.starts
  · rintro ⟨hne, hchain, hlast⟩
    refine ⟨hchain, ?_, ?_, ?_⟩
    · rw [List.length_reverse, List.length_cons]
      exact Nat.succ_lt_succ (List.length_pos_of_ne_nil hne)
    · rw [List.head?_reverse]
      exact hlast
    · rw [List.getLast?_reverse]
      rfl

theorem ClosedPath.exists_way (h : ClosedPath (Edge next) start path) :
    ∃ way ≠ [], path = (start :: way).reverse ∧ IsWay next start (start :: way) := by
  obtain ⟨middle, hpath⟩ := h.exists_middle
  have hreverse : path = (start :: (start :: middle).reverse).reverse := by
    rw [List.reverse_cons, List.reverse_reverse]
    exact hpath
  rw [hreverse] at h
  exact ⟨_, (closedPath_reverse_iff.mp h).1, hreverse, (closedPath_reverse_iff.mp h).2⟩

namespace Components

/-- A closed path never leaves the component of its start. -/
theorem closedPath_within_iff (h : Components next names groups) (hscope : Scope next names)
    (hgroup : group ∈ groups) (hstart : start ∈ group) :
    ClosedPath (Edge (within next group)) start path ↔ ClosedPath (Edge next) start path := by
  constructor
  · intro hpath
    exact { hpath with chain := hpath.chain.imp fun _ _ hedge => (edge_within_iff.mp hedge).1 }
  · intro hpath
    have hnames : ∀ name ∈ path, name ∈ names := fun name hname =>
      hscope.mem_of_reflTransGen (h.mem_names hgroup hstart) (hpath.reach hname).1
    have hmem : ∀ name ∈ path, name ∈ group := fun name hname =>
      (h.mutual_iff group hgroup start hstart name (hnames name hname)).mpr (hpath.reach hname)
    exact { hpath with
      chain := hpath.chain.imp_of_mem_imp fun source target _ htarget hedge =>
        edge_within_iff.mpr ⟨hedge, hmem target htarget⟩ }

theorem leastCycle_of_leastWay (h : Components next names groups) (hscope : Scope next names)
    (hgroup : group ∈ groups) (hstart : start ∈ group)
    (hway : LeastWay (within next group) start start way) :
    LeastCycle (Edge next) start (start :: way).reverse := by
  have hleast : ∀ other, ClosedPath (Edge next) start other →
      (start :: way).reverse = other ∨ List.Shortlex (· < ·) (start :: way).reverse other := by
    intro other hother
    have hwithin := (h.closedPath_within_iff hscope hgroup hstart).mpr hother
    obtain ⟨back, hne, rfl, hback⟩ := hwithin.exists_way
    exact (hway.least back hne hback).imp (congrArg _) id
  have hclosed := closedPath_reverse_iff.mpr ⟨hway.nonempty, hway.isWay⟩
  refine ⟨(h.closedPath_within_iff hscope hgroup hstart).mp hclosed, ?_, ?_, ?_⟩
  · rw [List.dropLast_reverse, List.nodup_reverse]
    exact hway.nodup
  · intro name other hother hmem
    obtain ⟨rotated, hrotated, hlength⟩ := hother.rotate hmem
    rw [← hlength]
    rcases hleast rotated hrotated with hsame | hless
    · exact (congrArg List.length hsame).le
    · rcases List.shortlex_def.mp hless with hshort | hlong
      · exact hshort.le
      · exact hlong.1.le
  · intro other hother hlength
    refine (hleast other hother).imp id fun hless => ?_
    exact ((List.shortlex_def.mp hless).resolve_left fun hshort =>
      absurd hlength hshort.ne').2

/-- The path that is found in a component is the least closed path from its first name. -/
theorem exists_leads (h : Components next names groups) (hscope : Scope next names)
    (hsorted : ∀ name, (next name).Pairwise (· < ·)) (hgroup : group ∈ groups)
    (hpath : closedPath? next group = some path) :
    ∃ start ∈ group, Leads (Edge next) start ∧ LeastCycle (Edge next) start path := by
  have hcyclic : isCyclic next group = true :=
    (h.isSome_closedPath?_iff hscope hgroup).mp (Option.isSome_of_eq_some hpath)
  rw [closedPath?, Option.bind_eq_bind, Option.bind_eq_some_iff] at hpath
  obtain ⟨start, hhead, hsearch⟩ := hpath
  obtain ⟨rest, hsort⟩ := List.head?_eq_some_iff.mp hhead
  have hstart : start ∈ group := KeyMap.mem_sortNames_iff.mp (hsort ▸ List.mem_cons_self)
  refine ⟨start, hstart, ⟨(h.isCyclic_iff hscope hgroup hstart).mp hcyclic, ?_⟩, ?_⟩
  · intro name hreach hback
    have hnames := hscope.mem_of_reflTransGen (h.mem_names hgroup hstart) hreach
    have hname := (h.mutual_iff group hgroup start hstart name hnames).mpr ⟨hreach, hback⟩
    have hordered : (start :: rest).Pairwise (· < ·) := hsort ▸ KeyMap.keys_sorted _
    rw [← KeyMap.mem_sortNames_iff, hsort] at hname
    rcases List.mem_cons.mp hname with rfl | hname
    · exact le_refl _
    · exact (List.rel_of_pairwise_cons hordered hname).le
  · have hinner : Scope (within next group) group := scope_within (h.nodup_group hgroup)
    obtain ⟨way, rfl, hway⟩ := leastWay_of_search? (fun name => (hsorted name).filter _)
      hinner.closed _ [] _ _ path (ordered_start _ start) (searching_start hstart) hsearch
    exact h.leastCycle_of_leastWay hscope hgroup hstart hway

end Components

end MetricLayer.Graph
