import Mathlib.Data.List.Nodup
import RecordQuery.Token.Stream

/-!
# Places of tokens

The tokens of a text stand at different places, each further on than the ones ahead of it, and all
of them inside the text (`Scan.places`). So the place of a token tells which token it is
(`Token.eq_of_position_eq`). If something is left open, all tokens stand ahead of where it was
opened, and that is the place which the stream of the text reports
(`TokenStream.pendingFault_ofText`).
-/

namespace RecordQuery

/-- Among tokens that stand one after the other, a token is known by its place. -/
theorem Token.eq_of_position_eq {tokens : List Token}
    (hplaces : tokens.Pairwise (·.position < ·.position)) {token other : Token}
    (htoken : token ∈ tokens) (hother : other ∈ tokens) (h : token.position = other.position) :
    token = other := by
  have hdistinct : (tokens.map Token.position).Nodup :=
    List.pairwise_map.2 (hplaces.imp Nat.ne_of_lt)
  exact List.inj_on_of_nodup_map hdistinct htoken hother h

namespace Lexeme

theorem places (position : Nat) {l : Lexeme} (h : l.source ≠ []) :
    (l.tokens position).Pairwise (·.position < ·.position) ∧
      ∀ token ∈ l.tokens position,
        position ≤ token.position ∧ token.position < position + l.width := by
  have hwidth : 0 < l.width := List.length_pos_iff.2 h
  cases l with
  | plain kind text => simpa [tokens] using hwidth
  | quoted content => simpa [tokens] using hwidth
  | key name =>
      have hlength : (Lexeme.key name).width = name.length + 4 := by simp [width, source]
      simp only [tokens, hlength, List.pairwise_cons, List.mem_cons, List.not_mem_nil, or_false,
        forall_eq_or_imp, forall_eq]
      refine ⟨⟨⟨?_, ?_⟩, ?_, fun _ h => h.elim, .nil⟩, ⟨?_, ?_⟩, ⟨?_, ?_⟩, ?_, ?_⟩ <;> omega

end Lexeme

namespace Scan

theorem place_of_opened {position : Nat} {cs : List Char} {what : Opening} {place : Nat}
    (h : (of position cs).opened = some (what, place)) :
    position ≤ place ∧ place < position + cs.length := by
  fun_induction of position cs with
  | case1 position => cases h
  | case2 position c cs hc ih =>
      have hplace := ih h
      rw [List.length_cons]
      omega
  | case3 position c cs hc what htake =>
      cases h
      simp
  | case4 position c cs hc l rest htake ih =>
      have hplace := ih h
      have hlength : (c :: cs).length = l.width + rest.length := by
        rw [← Lexeme.source_append_of_take htake, List.length_append, Lexeme.width]
      omega

/-- The tokens of a text stand in it one after the other, and ahead of what is left open. -/
theorem places (position : Nat) (cs : List Char) :
    (of position cs).tokens.Pairwise (·.position < ·.position) ∧
      ∀ token ∈ (of position cs).tokens,
        (position ≤ token.position ∧ token.position < position + cs.length) ∧
          ∀ what place, (of position cs).opened = some (what, place) → token.position < place := by
  fun_induction of position cs with
  | case1 position => exact ⟨.nil, List.forall_mem_nil _⟩
  | case2 position c cs hc ih =>
      refine ⟨ih.1, fun token htoken => ?_⟩
      rcases ih.2 token htoken with ⟨hbounds, hopened⟩
      refine ⟨?_, hopened⟩
      rw [List.length_cons]
      omega
  | case3 position c cs hc what h => exact ⟨.nil, List.forall_mem_nil _⟩
  | case4 position c cs hc l rest h ih =>
      rcases ih with ⟨hordered, hlater⟩
      rcases Lexeme.places position (Lexeme.source_ne_nil_of_take h) with ⟨hfirst, hlexeme⟩
      have hlength : (c :: cs).length = l.width + rest.length := by
        rw [← Lexeme.source_append_of_take h, List.length_append, Lexeme.width]
      rw [tokens_cons, hlength]
      refine ⟨List.pairwise_append.2 ⟨hfirst, hordered, fun a ha b hb => ?_⟩,
        fun token htoken => ?_⟩
      · have hlow := (hlater b hb).1
        have hhigh := hlexeme a ha
        omega
      · rcases List.mem_append.1 htoken with hmem | hmem
        · have hbounds := hlexeme token hmem
          refine ⟨by omega, fun what place hopened => ?_⟩
          have hplace : position + l.width ≤ place ∧ _ := place_of_opened hopened
          omega
        · rcases hlater token hmem with ⟨hbounds, hopened⟩
          exact ⟨by omega, hopened⟩

theorem lastOpening_of_opened {s : Scan} {what : Opening} {place : Nat}
    (h : s.opened = some (what, place)) : s.lastOpening what = place := by
  simp [lastOpening, openings, h]

theorem leavesOpen_iff {s : Scan} {what : Opening} :
    s.leavesOpen what = true ↔ ∃ place, s.opened = some (what, place) := by
  rw [leavesOpen]
  rcases s.opened with _ | ⟨other, place⟩ <;> simp

end Scan

def Opening.fault : Opening → Nat → Fault
  | .quote, place => .unterminatedLiteral place
  | .key, place => .unterminatedKey place

namespace TokenStream

def leavesOpen (stream : TokenStream) : Opening → Bool
  | .quote => stream.hasUnterminatedLiteral
  | .key => stream.hasUnterminatedKeyName

/-- The place at which something of a kind was last opened; zero if nothing was. -/
def lastOf (stream : TokenStream) : Opening → Nat
  | .quote => stream.lastQuote
  | .key => stream.lastKey

theorem leavesOpen_ofText (text : String) (context : QueryContext) (what : Opening) :
    (ofText text context).leavesOpen what = (Scan.of 0 text.toList).leavesOpen what := by
  cases what <;> rfl

theorem lastOf_ofText (text : String) (context : QueryContext) (what : Opening) :
    (ofText text context).lastOf what = (Scan.of 0 text.toList).lastOpening what := by
  cases what <;> rfl

theorem opened_eq_of_leavesOpen {text : String} {context : QueryContext} {what : Opening}
    (h : (ofText text context).leavesOpen what = true) :
    (Scan.of 0 text.toList).opened = some (what, (ofText text context).lastOf what) := by
  rw [leavesOpen_ofText] at h
  rcases Scan.leavesOpen_iff.1 h with ⟨place, hopened⟩
  rw [hopened, lastOf_ofText, Scan.lastOpening_of_opened hopened]

theorem pendingFault_ofText (text : String) (context : QueryContext) :
    (ofText text context).pendingFault =
      (Scan.of 0 text.toList).opened.map fun (what, place) => what.fault place := by
  rw [pendingFault, unterminated_ofText]
  cases hopened : (Scan.of 0 text.toList).opened with
  | none => rfl
  | some opening =>
      rcases opening with ⟨what, place⟩
      have hlast := Scan.lastOpening_of_opened hopened
      cases what with
      | quote => exact congrArg (some ∘ Fault.unterminatedLiteral) hlast
      | key => exact congrArg (some ∘ Fault.unterminatedKey) hlast

end TokenStream

end RecordQuery
