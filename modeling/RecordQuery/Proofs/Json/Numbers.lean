import RecordQuery.Json.Reader
import RecordQuery.Proofs.Number.Capacity
import RecordQuery.Proofs.Reading

/-!
# The numbers of a document

Whatever text a document is read from, each of its numbers is an integer of a machine word or a
double (`Json.hasMachineNumbers_of_read`). The readers of arrays and objects take the reader of
their parts as an argument, so they are described by what that reader yields (`Json.Yields`).
-/

namespace RecordQuery

open Reading (bind_eq_ok_iff)

namespace Json

inductive HasMachineNumbers : Json → Prop
  | null : HasMachineNumbers .null
  | boolean (b : Bool) : HasMachineNumbers (.boolean b)
  | number {n : JsonNumber} (h : n.IsMachineNumber) : HasMachineNumbers (.number n)
  | string (s : String) : HasMachineNumbers (.string s)
  | array {items : List Json} (h : ∀ item ∈ items, HasMachineNumbers item) :
      HasMachineNumbers (.array items)
  | object {fields : List (String × Json)} (h : ∀ field ∈ fields, HasMachineNumbers field.2) :
      HasMachineNumbers (.object fields)

def Yields {α : Type} (P : α → Prop) (r : Reader α) : Prop :=
  ∀ ⦃cs x rest⦄, r cs = .ok (x, rest) → P x

section Parts

variable {α : Type} {P : α → Prop}

theorem yields_readElements {item : Reader α} (h : Yields P item) (fuel : Nat) {taken : List α}
    (htaken : ∀ x ∈ taken, P x) :
    Yields (fun xs => ∀ x ∈ xs, P x) (readElements item fuel taken) := by
  induction fuel generalizing taken with
  | zero => exact fun _ _ _ hread => by cases hread
  | succ fuel ih =>
      intro cs xs rest hread
      rw [readElements, bind_eq_ok_iff] at hread
      rcases hread with ⟨next, -, hread⟩
      cases next with
      | none =>
          rcases bind_eq_ok_iff.1 hread with ⟨_, -, hread⟩
          cases hread
          exact fun x hx => htaken x (List.mem_reverse.1 hx)
      | some cs =>
          rcases bind_eq_ok_iff.1 hread with ⟨⟨x, cs⟩, hitem, hread⟩
          exact ih (List.forall_mem_cons.2 ⟨h hitem, htaken⟩) hread

theorem yields_readArray {item : Reader α} (h : Yields P item) :
    Yields (fun xs => ∀ x ∈ xs, P x) (readArray item) :=
  fun _ _ _ hread => yields_readElements h _ (fun _ hx => by cases hx) hread

theorem yields_readMembers {member : α → String → Reader α}
    (h : ∀ s key, P s → Yields P (member s key)) (fuel : Nat) {first : Bool} {s : α} (hs : P s) :
    Yields P (readMembers member fuel first s) := by
  induction fuel generalizing first s with
  | zero => exact fun _ _ _ hread => by cases hread
  | succ fuel ih =>
      intro cs s' rest hread
      rw [readMembers, bind_eq_ok_iff] at hread
      rcases hread with ⟨next, -, hread⟩
      cases next with
      | none =>
          rcases bind_eq_ok_iff.1 hread with ⟨_, -, hread⟩
          cases hread
          exact hs
      | some found =>
          rcases bind_eq_ok_iff.1 hread with ⟨⟨s', cs⟩, hmember, hread⟩
          exact ih (h s found.1 hs hmember) hread

theorem yields_readObject {member : α → String → Reader α}
    (h : ∀ s key, P s → Yields P (member s key)) {s : α} (hs : P s) :
    Yields P (readObject member s) :=
  fun _ _ _ hread => yields_readMembers h _ hs hread

theorem forall_insertField {β : Type} {Q : β → Prop} {key : String} {value : β}
    {fields : List (String × β)} (hvalue : Q value) (h : ∀ field ∈ fields, Q field.2) :
    ∀ field ∈ insertField key value fields, Q field.2 := by
  induction fields with
  | nil => simpa [insertField] using hvalue
  | cons field fields ih =>
      rcases List.forall_mem_cons.1 h with ⟨hfirst, hothers⟩
      rw [insertField]
      split
      · exact List.forall_mem_cons.2 ⟨hvalue, hothers⟩
      · split
        · exact List.forall_mem_cons.2 ⟨hvalue, h⟩
        · exact List.forall_mem_cons.2 ⟨hfirst, ih hothers⟩

end Parts

theorem isMachineNumber_of_wordInteger? {negative : Bool} {magnitude : Nat} {n : Int}
    (h : wordInteger? negative magnitude = some n) : (JsonNumber.integer n).IsMachineNumber := by
  unfold wordInteger? at h
  rw [JsonNumber.IsMachineNumber]
  split at h
  · split at h
    · next hrange =>
        rw [Bool.and_eq_true, decide_eq_true_eq, decide_eq_true_eq] at hrange
        cases h
        omega
    · cases h
  · split at h
    · next hfits =>
        rw [Number.fitsUInt64, decide_eq_true_eq] at hfits
        cases h
        omega
    · cases h

theorem yields_readNumber (negative : Bool) :
    Yields JsonNumber.IsMachineNumber (readNumber negative) := by
  intro cs n rest h
  rw [readNumber, bind_eq_ok_iff] at h
  rcases h with ⟨⟨whole, cs⟩, -, h⟩
  rcases bind_eq_ok_iff.1 h with ⟨⟨places, cs⟩, -, h⟩
  rcases bind_eq_ok_iff.1 h with ⟨⟨exponent, cs⟩, -, h⟩
  dsimp only at h
  split at h
  · next m hword =>
      cases h
      split at hword
      · exact isMachineNumber_of_wordInteger? hword
      · cases hword
  · split at h
    · next x hdouble =>
        cases h
        exact Number.Binary64.isDouble_of_ofDigits? hdouble
    · cases h

/-- The parts of a document have less room to nest in than the document. -/
theorem yields_readValue (room : Nat) : Yields HasMachineNumbers (readValue room) := by
  induction room using Nat.strongRecOn with
  | ind room ih =>
      intro cs v rest h
      rw [readValue] at h
      split at h
      · cases h
      · rcases bind_eq_ok_iff.1 h with ⟨_, -, h⟩
        cases h
        exact .null
      · rcases bind_eq_ok_iff.1 h with ⟨_, -, h⟩
        cases h
        exact .boolean true
      · rcases bind_eq_ok_iff.1 h with ⟨_, -, h⟩
        cases h
        exact .boolean false
      · rcases bind_eq_ok_iff.1 h with ⟨⟨s, _⟩, -, h⟩
        cases h
        exact .string s
      · rcases bind_eq_ok_iff.1 h with ⟨_, hnumber, h⟩
        cases h
        exact .number (yields_readNumber true hnumber)
      · split at h
        · cases h
        · next room =>
            rcases bind_eq_ok_iff.1 h with ⟨_, hitems, h⟩
            cases h
            exact .array (yields_readArray (ih room (Nat.lt_succ_self room)) hitems)
      · split at h
        · cases h
        · next room =>
            rcases bind_eq_ok_iff.1 h with ⟨_, hfields, h⟩
            cases h
            refine .object (yields_readObject
              (P := fun fields => ∀ field ∈ fields, field.2.HasMachineNumbers) ?_ ?_ hfields)
            · intro fields key hmembers cs fields' rest hmember
              rcases bind_eq_ok_iff.1 hmember with ⟨_, -, hmember⟩
              rcases bind_eq_ok_iff.1 hmember with ⟨_, hvalue, hmember⟩
              cases hmember
              exact forall_insertField (ih room (Nat.lt_succ_self room) hvalue) hmembers
            · exact fun _ hfield => by cases hfield
      · split at h
        · rcases bind_eq_ok_iff.1 h with ⟨_, hnumber, h⟩
          cases h
          exact .number (yields_readNumber false hnumber)
        · cases h

/-- The numbers of a document that is read from a text are those of a machine. -/
theorem hasMachineNumbers_of_read {text : String} {v : Json} (h : read text = .ok v) :
    v.HasMachineNumbers := by
  rw [read, readWholeText, bind_eq_ok_iff] at h
  rcases h with ⟨⟨v', cs⟩, hvalue, h⟩
  dsimp only at h
  split at h
  · cases h
    exact yields_readValue maxDepth hvalue
  · cases h

end Json

end RecordQuery
