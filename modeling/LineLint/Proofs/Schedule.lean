import LineLint.Analyzer
import LineLint.Rules.Indentation
import Mathlib.Data.List.Induction
import Mathlib.Logic.Relation

/-! # Runs over many files

Workers analyze the files of a run in an order that nobody controls. Whatever the order, the reports
are those on the readable files, in the order of the files, and every one is shown once.
-/

namespace LineLint

namespace Source

/-- The name and the text of a file that could be read. -/
def text? : Source → Option (String × String)
  | ⟨id, .text text⟩ => some (id, text)
  | ⟨_, .unreadable _⟩ => none

/-- The entry for a file that could not be read. -/
def unreadable? : Source → Option Unreadable
  | ⟨_, .text _⟩ => none
  | ⟨id, .unreadable reason⟩ => some ⟨id, reason⟩

/-- A file could be read or it could not, and never both. -/
theorem length_text?_add_length_unreadable? (sources : List Source) :
    (sources.filterMap text?).length + (sources.filterMap unreadable?).length =
      sources.length := by
  induction sources with
  | nil => rfl
  | cons source rest ih =>
    rcases source with ⟨id, text | reason⟩
    · change (rest.filterMap text?).length + 1 + (rest.filterMap unreadable?).length =
        rest.length + 1
      omega
    · change (rest.filterMap text?).length + ((rest.filterMap unreadable?).length + 1) =
        rest.length + 1
      omega

end Source

namespace Analyzer

variable {σ : Type} (analyzer : Analyzer)

/-- The reports on the files that could be read. -/
def reportsOf (sources : List Source) : List Report :=
  (sources.filterMap Source.text?).map fun file => analyzer.analyzeSource file.1 file.2

/-- The reports on the files that could be read, and the files that could not. -/
def summaryOf (sources : List Source) : Summary :=
  ⟨analyzer.reportsOf sources, sources.filterMap Source.unreadable?⟩

theorem summaryOf_append (sources others : List Source) :
    analyzer.summaryOf (sources ++ others) =
      ⟨(analyzer.summaryOf sources).reports ++ (analyzer.summaryOf others).reports,
        (analyzer.summaryOf sources).unreadable ++ (analyzer.summaryOf others).unreadable⟩ := by
  simp only [summaryOf, reportsOf, List.filterMap_append, List.map_append]

/-- Gathering asks the slot and the content of a file, and the two agree. -/
theorem gather_eq (observe : σ → Report → σ) (sources : List Source) (summary : Summary)
    (seen : σ) :
    gather observe (summary, seen) (sources.zip (sources.map analyzer.analyze?)) =
      (⟨summary.reports ++ analyzer.reportsOf sources,
        summary.unreadable ++ sources.filterMap Source.unreadable?⟩,
        (analyzer.reportsOf sources).foldl observe seen) := by
  induction sources generalizing summary seen with
  | nil => simp [gather, reportsOf]
  | cons source rest ih =>
    rcases source with ⟨id, text | reason⟩
    · have first : analyzer.reportsOf (⟨id, .text text⟩ :: rest) =
          analyzer.analyzeSource id text :: analyzer.reportsOf rest := rfl
      have none : (⟨id, .text text⟩ :: rest).filterMap Source.unreadable? =
          rest.filterMap Source.unreadable? := rfl
      rw [first, none]
      simp only [List.map_cons, List.zip_cons_cons, gather, analyze?, ih, Summary.push,
        List.append_assoc, List.cons_append, List.nil_append, List.foldl_cons]
    · have none : analyzer.reportsOf (⟨id, .unreadable reason⟩ :: rest) =
          analyzer.reportsOf rest := rfl
      have first : (⟨id, .unreadable reason⟩ :: rest).filterMap Source.unreadable? =
          ⟨id, reason⟩ :: rest.filterMap Source.unreadable? := rfl
      rw [first, none]
      simp only [List.map_cons, List.zip_cons_cons, gather, analyze?, ih, Summary.pushUnreadable,
        List.append_assoc, List.cons_append, List.nil_append]

theorem analyzeInOrder_append_singleton (sources : Array Source) (order : List Nat) (i : Nat) :
    analyzer.analyzeInOrder sources (order ++ [i]) =
      (analyzer.analyzeInOrder sources order).setIfInBounds i
        (sources[i]?.bind analyzer.analyze?) := by
  rw [analyzeInOrder, List.foldl_append]
  rfl

theorem size_analyzeInOrder (sources : Array Source) (order : List Nat) :
    (analyzer.analyzeInOrder sources order).size = sources.size := by
  induction order using List.reverseRecOn with
  | nil => simp [analyzeInOrder]
  | append_singleton order i ih =>
    rw [analyzeInOrder_append_singleton, Array.size_setIfInBounds, ih]

/-- The slot of a file that has been analyzed holds what its analysis gives. -/
theorem getElem?_analyzeInOrder {sources : Array Source} {order : List Nat} {i : Nat}
    (analyzed : i ∈ order) :
    (analyzer.analyzeInOrder sources order)[i]? = sources[i]?.map analyzer.analyze? := by
  induction order using List.reverseRecOn with
  | nil => simp at analyzed
  | append_singleton order j ih =>
    rw [analyzeInOrder_append_singleton, Array.getElem?_setIfInBounds, size_analyzeInOrder]
    by_cases last : j = i
    · subst last
      by_cases bound : j < sources.size
      · simp [bound]
      · simp [bound]
    · rw [if_neg last]
      refine ih ?_
      rcases List.mem_append.mp analyzed with member | member
      · exact member
      · exact absurd (List.mem_singleton.mp member).symm last

/-- Once every file has been analyzed, the order in which it happened has left no trace. -/
theorem analyzeInOrder_eq {sources : Array Source} {order : List Nat}
    (complete : ∀ i < sources.size, i ∈ order) :
    analyzer.analyzeInOrder sources order = sources.map analyzer.analyze? := by
  apply Array.ext_getElem?
  intro i
  by_cases bound : i < sources.size
  · rw [getElem?_analyzeInOrder analyzer (complete i bound), Array.getElem?_map]
  · have beyond : sources.size ≤ i := Nat.not_lt.mp bound
    rw [Array.getElem?_eq_none (by rwa [size_analyzeInOrder]),
      Array.getElem?_eq_none (by rwa [Array.size_map])]

/-- The summary and the calls to the observer are the same in every order of analysis. -/
theorem runInOrder_eq {sources : List Source} {order : List Nat}
    (each : order.Perm (List.range sources.length)) (observe : σ → Report → σ) (seen : σ) :
    analyzer.runInOrder order sources observe seen =
      (analyzer.summaryOf sources, (analyzer.reportsOf sources).foldl observe seen) := by
  have complete : ∀ i < sources.toArray.size, i ∈ order := by
    intro i bound
    exact each.mem_iff.mpr (List.mem_range.mpr bound)
  rw [runInOrder, analyzeInOrder_eq analyzer complete, Array.toList_map, gather_eq]
  rfl

theorem run_eq (sources : List Source) : analyzer.run sources = analyzer.summaryOf sources := by
  rw [run, runWith, runInOrder_eq analyzer (List.Perm.refl _)]

/-- Analyzers that find the same on every line give the same runs. -/
theorem run_congr {analyzer other : Analyzer}
    (same : ∀ line, analyzer.checkLine line = other.checkLine line) (sources : List Source) :
    analyzer.run sources = other.run sources := by
  simp only [run_eq, summaryOf, reportsOf, analyzeSource, funext same]

end Analyzer

/-- Workers at work: the numbers of the files that wait, of those that are being analyzed, and the
slots for the reports. -/
structure Workers where
  waiting : List Nat
  busy : List Nat
  slots : Array (Option Report)

namespace Workers

variable {analyzer : Analyzer} {sources : Array Source} {limit : Option Nat}

/-- At first every file waits. -/
def start (sources : Array Source) : Workers :=
  ⟨List.range sources.size, [], Array.replicate sources.size none⟩

/-- What workers do. A free worker takes any of the waiting files; there is a free one as long as
the limit, where there is one and it is not zero, is not reached. A worker that has analyzed its
file fills the slot of the file. -/
inductive Step (analyzer : Analyzer) (sources : Array Source) (limit : Option Nat) :
    Workers → Workers → Prop
  | take {w : Workers} {i : Nat} {waiting : List Nat} (one : w.waiting.Perm (i :: waiting))
      (free : ∀ n ∈ limit, n = 0 ∨ w.busy.length < n) :
      Step analyzer sources limit w ⟨waiting, i :: w.busy, w.slots⟩
  | finish {w : Workers} {i : Nat} {busy : List Nat} (one : w.busy.Perm (i :: busy)) :
      Step analyzer sources limit w
        ⟨w.waiting, busy, w.slots.setIfInBounds i (sources[i]?.bind analyzer.analyze?)⟩

/-- A way in which workers can come to the end of their work. -/
structure Finish (analyzer : Analyzer) (sources : Array Source) (limit : Option Nat)
    (final : Workers) : Prop where
  steps : Relation.ReflTransGen (Step analyzer sources limit) (start sources) final
  none_waiting : final.waiting = []
  none_busy : final.busy = []

/-- The slots always hold what the files that are done give in the order in which they were done. -/
theorem exists_order {w : Workers}
    (steps : Relation.ReflTransGen (Step analyzer sources limit) (start sources) w) :
    ∃ order, (order ++ (w.busy ++ w.waiting)).Perm (List.range sources.size) ∧
      w.slots = analyzer.analyzeInOrder sources order := by
  induction steps with
  | refl => exact ⟨[], .refl _, rfl⟩
  | @tail w _ _ step ih =>
    obtain ⟨order, each, slots⟩ := ih
    cases step with
    | @take i waiting one free =>
      refine ⟨order, ?_, slots⟩
      have moved : (w.busy ++ w.waiting).Perm (i :: w.busy ++ waiting) :=
        (one.append_left w.busy).trans List.perm_middle
      exact (moved.append_left order).symm.trans each
    | @finish i busy one =>
      -- The file whose slot is filled last comes last in the order.
      refine ⟨order ++ [i], ?_, ?_⟩
      · have moved : (order ++ (w.busy ++ w.waiting)).Perm (order ++ (i :: busy ++ w.waiting)) :=
          (one.append_right w.waiting).append_left order
        rw [List.append_assoc]
        exact moved.symm.trans each
      · rw [Analyzer.analyzeInOrder_append_singleton, slots]

/-- Workers who have finished have analyzed every file, in some order. -/
theorem Finish.exists_order {final : Workers} (finish : Finish analyzer sources limit final) :
    ∃ order, order.Perm (List.range sources.size) ∧
      final.slots = analyzer.analyzeInOrder sources order := by
  obtain ⟨order, each, slots⟩ := Workers.exists_order finish.steps
  rw [finish.none_waiting, finish.none_busy, List.append_nil, List.append_nil] at each
  exact ⟨order, each, slots⟩

def remaining (w : Workers) : Nat := 2 * w.waiting.length + w.busy.length

theorem Step.remaining_eq {w next : Workers} (step : Step analyzer sources limit w next) :
    w.remaining = next.remaining + 1 := by
  cases step with
  | @take i waiting one free =>
    have length := one.length_eq
    simp only [remaining, List.length_cons] at length ⊢
    omega
  | @finish i busy one =>
    have length := one.length_eq
    simp only [remaining, List.length_cons] at length ⊢
    omega

/-- Some worker can go on until nothing is left. -/
theorem exists_step {w : Workers} (left : 0 < w.remaining) :
    ∃ next, Step analyzer sources limit w next := by
  rcases w with ⟨waiting, busy, slots⟩
  cases busy with
  | cons i busy => exact ⟨_, .finish (List.Perm.refl (i :: busy))⟩
  | nil =>
    cases waiting with
    | nil => simp [remaining] at left
    | cons i waiting =>
      refine ⟨_, .take (List.Perm.refl (i :: waiting)) ?_⟩
      intro n _
      exact Nat.eq_zero_or_pos n

/-- Workers never get stuck: from every state they reach, they can finish. -/
theorem exists_finish_of_steps {w : Workers}
    (steps : Relation.ReflTransGen (Step analyzer sources limit) (start sources) w) :
    ∃ final, Finish analyzer sources limit final := by
  induction left : w.remaining generalizing w with
  | zero =>
    simp only [remaining] at left
    refine ⟨w, steps, ?_, ?_⟩
    · exact List.length_eq_zero_iff.mp (by omega)
    · exact List.length_eq_zero_iff.mp (by omega)
  | succ n ih =>
    obtain ⟨next, step⟩ : ∃ next, Step analyzer sources limit w next := exists_step (by omega)
    have fewer := step.remaining_eq
    exact ih (steps.tail step) (by omega)

end Workers

/-- A run splits its files into those that could be read and those that could not. Whatever the
order in which the files are analyzed, and however many workers do it, the summary holds the reports
on the former and the entries for the latter, both in the order of the files, and each report is
shown once, in the order of the summary. Nothing is lost, and runs over two lists add up. -/
theorem run_splits_sources {σ : Type} (analyzer : Analyzer) (sources : List Source)
    (observe : σ → Report → σ) (seen : σ) :
    (∀ order : List Nat, order.Perm (List.range sources.length) →
      analyzer.runInOrder order sources observe seen =
        (analyzer.summaryOf sources, (analyzer.reportsOf sources).foldl observe seen)) ∧
    (∀ limit, (∃ final, Workers.Finish analyzer sources.toArray limit final) ∧
      ∀ final, Workers.Finish analyzer sources.toArray limit final →
        Analyzer.gather observe (.empty, seen) (sources.zip final.slots.toList) =
          (analyzer.summaryOf sources, (analyzer.reportsOf sources).foldl observe seen)) ∧
    (analyzer.run sources).filesScanned + (analyzer.run sources).unreadable.length =
      sources.length ∧
    ∀ others, analyzer.run (sources ++ others) =
      ⟨(analyzer.run sources).reports ++ (analyzer.run others).reports,
        (analyzer.run sources).unreadable ++ (analyzer.run others).unreadable⟩ := by
  refine ⟨?_, ?_, ?_, ?_⟩
  · intro order each
    exact analyzer.runInOrder_eq each observe seen
  · intro limit
    refine ⟨Workers.exists_finish_of_steps .refl, ?_⟩
    intro final finish
    obtain ⟨order, each, slots⟩ := finish.exists_order
    rw [slots]
    exact analyzer.runInOrder_eq each observe seen
  · rw [Analyzer.run_eq, Summary.filesScanned, Analyzer.summaryOf, Analyzer.reportsOf,
      List.length_map, Source.length_text?_add_length_unreadable?]
  · intro others
    rw [Analyzer.run_eq, Analyzer.run_eq, Analyzer.run_eq, Analyzer.summaryOf_append]

/-- The last of three files comes first here, it has the name of another one and cannot be read. -/
theorem run_splits_three_sources :
    let analyzer : Analyzer := ⟨[⟨Rules.indentation .default, none⟩]⟩
    let sources : List Source :=
      [⟨"a", .text " f("⟩, ⟨"b", .text ""⟩, ⟨"a", .unreadable "denied"⟩]
    let summary : Summary :=
      ⟨[analyzer.analyzeSource "a" " f(", analyzer.analyzeSource "b" ""], [⟨"a", "denied"⟩]⟩
    let observe := fun (seen : List String) (report : Report) => seen ++ [report.file]
    [2, 0, 1].Perm (List.range 3) ∧
      analyzer.runInOrder [2, 0, 1] sources observe [] = (summary, ["a", "b"]) ∧
      ∃ final, Workers.Finish analyzer sources.toArray (some 2) final ∧
        Analyzer.gather observe (.empty, []) (sources.zip final.slots.toList) =
          (summary, ["a", "b"]) := by
  intro analyzer sources summary observe
  obtain ⟨inOrder, byWorkers, _⟩ := run_splits_sources analyzer sources observe []
  have each : [2, 0, 1].Perm (List.range 3) := by decide
  obtain ⟨⟨final, finish⟩, gathered⟩ := byWorkers (some 2)
  exact ⟨each, inOrder [2, 0, 1] each, final, finish, gathered final finish⟩

end LineLint
