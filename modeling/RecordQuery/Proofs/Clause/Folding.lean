import RecordQuery.Filter.Match

/-!
# Sequences are folded from the left

A sequence of clauses comes to the left fold of the results of its clauses, each of which is joined
to the result so far by the conjunction behind the clause ahead of it. So any clauses at the
beginning of a sequence may be put into a group, and the conjunction behind the last clause plays no
part (`Clause.sequenceHolds_foldsLeft`). Both hold wherever the sequence stands: a place in a filter
is given by the groups around it, each with its neighbours, and a filter depends on the sequence at
a place only through the result of that sequence.
-/

namespace RecordQuery

namespace Clause

variable {ρ : Type} [Record ρ] (record : ρ)

section Clauses

theorem holds_withConjunction (conjunction : Option Conjunction) (c : Clause) :
    (c.withConjunction conjunction).holds record = c.holds record := by
  cases c <;> simp [withConjunction, holds]

theorem holds_negateIf (again : Bool) (c : Clause) :
    (c.negateIf again).holds record = (c.holds record != again) := by
  cases c <;> simp [negateIf, holds, Bool.bne_assoc]

theorem sequenceHolds_singleton (c : Clause) : sequenceHolds record [c] = c.holds record := by
  simp [sequenceHolds, restHolds]

theorem sequenceHolds_pair (conjunction : Conjunction) (first second : Clause) :
    sequenceHolds record [first.withConjunction (some conjunction), second] =
      joinBy (some conjunction) (first.holds record) (second.holds record) := by
  simp [sequenceHolds, restHolds, holds_withConjunction]

end Clauses

section Fold

/-- The result of some clauses joined to the next clause by what stands behind the last of them:
only `or` makes a disjunction of it. -/
def foldStep (result : Bool) (pair : Clause × Clause) : Bool :=
  if pair.1.conjunction = some .or then result || pair.2.holds record
  else result && pair.2.holds record

/-- The left fold of a sequence: every clause with the one ahead of it. -/
def foldHolds : List Clause → Bool
  | [] => true
  | clause :: clauses =>
    ((clause :: clauses).zip clauses).foldl (foldStep record) (clause.holds record)

theorem joinBy_eq (conjunction : Option Conjunction) (a b : Bool) :
    joinBy conjunction a b = if conjunction = some .or then a || b else a && b := by
  rcases conjunction with _ | _ | _ <;> rfl

theorem restHolds_eq_foldl (result : Bool) (clause : Clause) (clauses : List Clause) :
    restHolds record result clause.conjunction clauses =
      ((clause :: clauses).zip clauses).foldl (foldStep record) result := by
  induction clauses generalizing result clause with
  | nil => rfl
  | cons next clauses ih =>
      rw [restHolds, ih, joinBy_eq, List.zip_cons_cons, List.foldl_cons, foldStep]

theorem sequenceHolds_eq_foldHolds (clauses : List Clause) :
    sequenceHolds record clauses = foldHolds record clauses := by
  cases clauses with
  | nil => rfl
  | cons clause clauses => rw [sequenceHolds, restHolds_eq_foldl, foldHolds]

end Fold

section Groups

/-- Clauses at the beginning come to a result of their own, which is joined to the rest by what
stands behind the last of them. -/
theorem restHolds_append (result : Bool) (conjunction : Option Conjunction)
    (first : List Clause) (last : Clause) (rest : List Clause) :
    restHolds record result conjunction (first ++ last :: rest) =
      restHolds record (restHolds record result conjunction (first ++ [last])) last.conjunction
        rest := by
  induction first generalizing result conjunction with
  | nil => simp [restHolds]
  | cons clause first ih => rw [List.cons_append, List.cons_append, restHolds, restHolds, ih]

theorem sequenceHolds_append (first : List Clause) (last : Clause) (rest : List Clause) :
    sequenceHolds record (first ++ last :: rest) =
      restHolds record (sequenceHolds record (first ++ [last])) last.conjunction rest := by
  cases first with
  | nil => simp [sequenceHolds, restHolds]
  | cons clause first =>
      rw [List.cons_append, List.cons_append, sequenceHolds, sequenceHolds, restHolds_append]

theorem sequenceHolds_group (first : List Clause) (last : Clause) (rest : List Clause) :
    sequenceHolds record (.group false last.conjunction (first ++ [last]) :: rest) =
      sequenceHolds record (first ++ last :: rest) := by
  rw [sequenceHolds_append, sequenceHolds, holds, Bool.bne_false, conjunction]

end Groups

section Replacement

variable {record} {clause other : Clause} {rest : List Clause}

/-- A clause may be replaced by one with the same result and the same conjunction behind it, which
counts only where something follows. -/
theorem restHolds_replace (hholds : clause.holds record = other.holds record)
    (hconjunction : rest ≠ [] → clause.conjunction = other.conjunction) (result : Bool)
    (conjunction : Option Conjunction) (first : List Clause) :
    restHolds record result conjunction (first ++ clause :: rest) =
      restHolds record result conjunction (first ++ other :: rest) := by
  induction first generalizing result conjunction with
  | nil =>
      rw [List.nil_append, List.nil_append, restHolds, restHolds, hholds]
      cases rest with
      | nil => rfl
      | cons next rest => rw [hconjunction (List.cons_ne_nil next rest)]
  | cons next first ih => rw [List.cons_append, List.cons_append, restHolds, restHolds, ih]

theorem sequenceHolds_replace (hholds : clause.holds record = other.holds record)
    (hconjunction : rest ≠ [] → clause.conjunction = other.conjunction) (first : List Clause) :
    sequenceHolds record (first ++ clause :: rest) =
      sequenceHolds record (first ++ other :: rest) := by
  cases first with
  | nil =>
      rw [List.nil_append, List.nil_append, sequenceHolds, sequenceHolds, hholds]
      cases rest with
      | nil => rfl
      | cons next rest => rw [hconjunction (List.cons_ne_nil next rest)]
  | cons next first =>
      rw [List.cons_append, List.cons_append, sequenceHolds, sequenceHolds,
        restHolds_replace hholds hconjunction]

end Replacement

section Places

structure Surrounding where
  before : List Clause
  negated : Bool
  conjunction : Option Conjunction
  after : List Clause

def Surrounding.around (s : Surrounding) (clauses : List Clause) : List Clause :=
  s.before ++ .group s.negated s.conjunction clauses :: s.after

/-- The sequence with the given clauses at a place, inside of the surroundings from the innermost
one on. -/
def within : List Surrounding → List Clause → List Clause
  | [], clauses => clauses
  | s :: surroundings, clauses => within surroundings (s.around clauses)

variable {record}

theorem sequenceHolds_within_congr {clauses others : List Clause} (surroundings : List Surrounding)
    (h : sequenceHolds record clauses = sequenceHolds record others) :
    sequenceHolds record (within surroundings clauses) =
      sequenceHolds record (within surroundings others) := by
  induction surroundings generalizing clauses others with
  | nil => exact h
  | cons s surroundings ih =>
      apply ih
      apply sequenceHolds_replace
      · rw [holds, holds, h]
      · intro _
        rfl

end Places

/-- A sequence comes to its left fold. At any place in a filter, clauses at the beginning may be put
into a group with the conjunction of the last of them, and the conjunction behind the last clause of
all may be any. -/
theorem sequenceHolds_foldsLeft :
    (∀ clauses, sequenceHolds record clauses = foldHolds record clauses) ∧
    (∀ surroundings first last rest,
      sequenceHolds record (within surroundings
          (.group false last.conjunction (first ++ [last]) :: rest)) =
        sequenceHolds record (within surroundings (first ++ last :: rest))) ∧
    ∀ surroundings first last conjunction,
      sequenceHolds record (within surroundings (first ++ [last.withConjunction conjunction])) =
        sequenceHolds record (within surroundings (first ++ [last])) := by
  refine ⟨sequenceHolds_eq_foldHolds record, ?_, ?_⟩
  · intro surroundings first last rest
    exact sequenceHolds_within_congr surroundings (sequenceHolds_group record first last rest)
  · intro surroundings first last conjunction
    apply sequenceHolds_within_congr surroundings
    apply sequenceHolds_replace (holds_withConjunction record conjunction last)
    intro hrest
    exact absurd rfl hrest

end Clause

end RecordQuery
