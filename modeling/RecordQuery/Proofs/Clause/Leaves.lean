import RecordQuery.Filter.Match
import RecordQuery.Proofs.Filter.WellFormed

/-!
# The tests in a filter

Groups, conjunctions and negations only put results together: a record enters a filter through its
tests, each of which asks for what one path finds. `Clause.leaves` lists the tests of a clause with
their paths. Two records that all these tests answer alike pass the same filters
(`Filter.holds_congr`), and what holds of every test of a well-formed clause holds of those listed
(`Clause.leaf_of_wellFormed`).
-/

namespace RecordQuery

namespace Path

def passes {ρ : Type} [Record ρ] (p : Path) (test : Test) (record : ρ) : Bool :=
  test.holds p.column (p.find record)

end Path

namespace Clause

mutual

def leaves : Clause → List (Path × Test)
  | .leaf _ _ path test => [(path, test)]
  | .group _ _ children => sequenceLeaves children

def sequenceLeaves : List Clause → List (Path × Test)
  | [] => []
  | clause :: clauses => clause.leaves ++ sequenceLeaves clauses

end

theorem mem_sequenceLeaves_cons {l : Path × Test} {clause : Clause} {clauses : List Clause} :
    l ∈ sequenceLeaves (clause :: clauses) ↔ l ∈ clause.leaves ∨ l ∈ sequenceLeaves clauses := by
  rw [sequenceLeaves, List.mem_append]

theorem holds_leaf {ρ : Type} [Record ρ] (record : ρ) (negated : Bool)
    (conjunction : Option Conjunction) (path : Path) (test : Test) :
    (Clause.leaf negated conjunction path test).holds record =
      (path.passes test record != negated) := by
  rw [holds, Path.passes]

section Congruence

variable {ρ σ : Type} [Record ρ] [Record σ] {r : ρ} {s : σ}

mutual

theorem holds_congr : ∀ {c : Clause},
    (∀ l ∈ c.leaves, l.1.passes l.2 r = l.1.passes l.2 s) → c.holds r = c.holds s
  | .leaf _ _ path test, same => by
      rw [holds_leaf, holds_leaf, same (path, test) (by simp [leaves])]
  | .group _ _ _, same => by
      rw [holds, holds, sequenceHolds_congr same]

theorem sequenceHolds_congr : ∀ {clauses : List Clause},
    (∀ l ∈ sequenceLeaves clauses, l.1.passes l.2 r = l.1.passes l.2 s) →
      sequenceHolds r clauses = sequenceHolds s clauses
  | [], _ => rfl
  | _ :: _, same => by
      rw [sequenceHolds, sequenceHolds,
        holds_congr fun l hl => same l (mem_sequenceLeaves_cons.2 (.inl hl)),
        restHolds_congr fun l hl => same l (mem_sequenceLeaves_cons.2 (.inr hl))]

theorem restHolds_congr {result : Bool} {conjunction : Option Conjunction} :
    ∀ {clauses : List Clause},
      (∀ l ∈ sequenceLeaves clauses, l.1.passes l.2 r = l.1.passes l.2 s) →
        restHolds r result conjunction clauses = restHolds s result conjunction clauses
  | [], _ => rfl
  | _ :: _, same => by
      rw [restHolds, restHolds,
        holds_congr fun l hl => same l (mem_sequenceLeaves_cons.2 (.inl hl)),
        restHolds_congr fun l hl => same l (mem_sequenceLeaves_cons.2 (.inr hl))]

end

end Congruence

section WellFormed

variable {leaf : Path → Test → Prop}

mutual

theorem leaf_of_wellFormed {l : Path × Test} : ∀ {depth : Nat} {c : Clause},
    c.WellFormed leaf depth → l ∈ c.leaves → leaf l.1 l.2
  | _, .leaf _ _ _ _, wellFormed, hl => by
      rw [leaves, List.mem_singleton] at hl
      rw [hl]
      exact wellFormed
  | _, .group _ _ _, ⟨_, _, wellFormed⟩, hl => leaf_of_sequenceWellFormed wellFormed hl

theorem leaf_of_sequenceWellFormed {l : Path × Test} : ∀ {depth : Nat} {clauses : List Clause},
    SequenceWellFormed leaf depth clauses → l ∈ sequenceLeaves clauses → leaf l.1 l.2
  | _, [], _, hl => by
      cases hl
  | _, _ :: _, ⟨_, wellFormed, others⟩, hl =>
      (mem_sequenceLeaves_cons.1 hl).elim (leaf_of_wellFormed wellFormed)
        (leaf_of_sequenceWellFormed others)

end

end WellFormed

end Clause

namespace Filter

def leaves (f : Filter) : List (Path × Test) :=
  Clause.sequenceLeaves f.clauses

theorem holds_congr {ρ σ : Type} [Record ρ] [Record σ] {r : ρ} {s : σ} {f : Filter}
    (same : ∀ l ∈ f.leaves, l.1.passes l.2 r = l.1.passes l.2 s) : f.holds r = f.holds s :=
  Clause.sequenceHolds_congr same

/-- Every test of a well-formed filter is one that the catalog admits. -/
theorem WellFormed.admits {catalog : Catalog} {f : Filter} (h : f.WellFormed catalog)
    {l : Path × Test} (hl : l ∈ f.leaves) :
    Admits catalog (fun type v => v.HasType type) l.1 l.2 :=
  Clause.leaf_of_sequenceWellFormed h hl

end Filter

end RecordQuery
