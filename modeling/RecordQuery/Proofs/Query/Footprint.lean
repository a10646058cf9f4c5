import RecordQuery.Proofs.Order.Verdict
import RecordQuery.Proofs.Query.StableSort

/-!
# What a query sees of a record

A query asks a record for the fields of the columns that it names, and for nothing else. Records
that have the same fields under these names pass the same filters (`Filter.holds_of_agreeOn`) and
are sorted alike (`SortKey.compareAll_of_agreeOn`), so a query commutes with every map of records
that keeps these fields (`Query.apply_map`).

All columns of a query are columns of the catalog against which its texts were read. So of two lists
of records that have the same fields there, a query selects the same places in the same order,
whatever else the records hold (`Query.places_eq_of_agreeOn`).
-/

namespace RecordQuery

/-- Two records have the same fields under some names. -/
def Record.AgreeOn {ρ σ : Type} [Record ρ] [Record σ] (names : List String) (r : ρ) (s : σ) :
    Prop :=
  ∀ name ∈ names, Record.field r name = Record.field s name

theorem Record.AgreeOn.subset {ρ σ : Type} [Record ρ] [Record σ] {names fewer : List String}
    {r : ρ} {s : σ} (h : AgreeOn names r s) (hsub : fewer ⊆ names) : AgreeOn fewer r s :=
  fun name hname => h name (hsub hname)

def Catalog.fieldNames (c : Catalog) : List String :=
  c.columns.map Column.name

namespace Filter

def fieldNames (f : Filter) : List String :=
  f.leaves.map fun l => l.1.column.name

/-- Whether a record passes a filter depends on the fields of the columns in it. -/
theorem holds_of_agreeOn {ρ σ : Type} [Record ρ] [Record σ] {f : Filter} {r : ρ} {s : σ}
    (h : Record.AgreeOn f.fieldNames r s) : f.holds r = f.holds s := by
  refine holds_congr fun l hl => ?_
  have hfield := h l.1.column.name (List.mem_map_of_mem hl)
  rw [Path.passes, Path.passes, Path.find, Path.find, hfield]

theorem fieldNames_subset {catalog : Catalog} {now : Timestamp} {text : String} {f : Filter}
    (h : ofText catalog now text = .ok f) : f.fieldNames ⊆ catalog.fieldNames := by
  intro name hname
  rcases List.mem_map.1 hname with ⟨l, hl, rfl⟩
  exact List.mem_map_of_mem ((wellFormed_of_ofText h).admits hl).column_mem

end Filter

namespace SortKey

def fieldNames (keys : List SortKey) : List String :=
  keys.map fun k => k.column.name

/-- How two records compare depends on their fields of the columns to sort by. -/
theorem compareAll_of_agreeOn {ρ σ : Type} [Record ρ] [Record σ] {keys : List SortKey} {a b : ρ}
    {a' b' : σ} (ha : Record.AgreeOn (fieldNames keys) a a')
    (hb : Record.AgreeOn (fieldNames keys) b b') : compareAll keys a b = compareAll keys a' b' := by
  induction keys with
  | nil => rfl
  | cons k keys ih =>
      have hfirst : k.column.name ∈ fieldNames (k :: keys) := List.mem_cons_self
      have hothers : fieldNames keys ⊆ fieldNames (k :: keys) := List.subset_cons_self _ _
      rw [compareAll, compareAll, ih (ha.subset hothers) (hb.subset hothers), compare, compare,
        Column.sortValue?, Column.sortValue?, Column.sortValue?, Column.sortValue?, ha _ hfirst,
        hb _ hfirst]

open Reading in
theorem columns_of_readKeys {catalog : Catalog} {stream : TokenStream} :
    ∀ {tokens : List Token} {keys : List SortKey}, readKeys catalog stream tokens = .ok keys →
      ∀ k ∈ keys, k.column ∈ catalog.columns
  | [], _, h => by cases h
  | name :: tokens, keys, h => by
      rw [readKeys] at h
      split at h
      case isFalse => cases h
      rcases bind_eq_ok_iff.1 h with ⟨column, hcolumn, h⟩
      have hmem := Catalog.mem_columns_of_resolve (Filter.columnOf_eq_ok_iff.1 hcolumn)
      have hlast {direction : Direction}
          (heq : (.ok [⟨column, direction⟩] : Except Fault (List SortKey)) = .ok keys) :
          ∀ k ∈ keys, k.column ∈ catalog.columns := by
        cases heq
        exact List.forall_mem_singleton.2 hmem
      have hcons {direction : Direction} {others : List Token}
          (heq : (readKeys catalog stream others >>= fun more =>
            .ok (⟨column, direction⟩ :: more)) = .ok keys)
          (hothers : ∀ more, readKeys catalog stream others = .ok more →
            ∀ k ∈ more, k.column ∈ catalog.columns) :
          ∀ k ∈ keys, k.column ∈ catalog.columns := by
        rcases bind_eq_ok_iff.1 heq with ⟨more, hmore, heq⟩
        cases heq
        exact List.forall_mem_cons.2 ⟨hmem, hothers more hmore⟩
      split at h
      · exact hlast h
      · split at h
        · exact hcons h fun more hmore => columns_of_readKeys hmore
        · split at h
          case isFalse => cases h
          split at h
          · cases h
          · split at h
            · exact hlast h
            · split at h
              · exact hcons h fun more hmore => columns_of_readKeys hmore
              · cases h

theorem fieldNames_subset {catalog : Catalog} {text : String} {keys : List SortKey}
    (h : ofText catalog text = .ok keys) : fieldNames keys ⊆ catalog.fieldNames := by
  have hread := Reading.mapError_eq_ok_iff.1 h
  have hkeys : ∀ k ∈ keys, k.column ∈ catalog.columns := by
    by_cases htokens : (TokenStream.ofText text .orderBy).tokens = []
    · rw [readTokens, htokens] at hread
      cases (TokenStream.closed_eq_ok_iff.1 hread).2
      exact List.forall_mem_nil _
    · rw [readTokens, List.isEmpty_eq_false_iff.2 htokens] at hread
      rcases Reading.bind_eq_ok_iff.1 hread with ⟨found, hfound, hclosed⟩
      cases (TokenStream.closed_eq_ok_iff.1 hclosed).2
      exact columns_of_readKeys hfound
  intro name hname
  rcases List.mem_map.1 hname with ⟨k, hk, rfl⟩
  exact List.mem_map_of_mem (hkeys k hk)

end SortKey

namespace Query

variable {ρ σ : Type} [Record ρ] [Record σ] {q : Query}

def fieldNames (q : Query) : List String :=
  q.filter.fieldNames ++ SortKey.fieldNames q.order

theorem page_map {α β : Type} (q : Query) (f : α → β) (records : List α) :
    q.page (records.map f) = (q.page records).map f := by
  rw [page, page]
  cases q.pageSize with
  | none => rfl
  | some size => simp only [List.map_take, List.map_drop]

theorem page_sublist {α : Type} (q : Query) (records : List α) :
    (q.page records).Sublist records := by
  rw [page]
  cases q.pageSize with
  | none => exact List.Sublist.refl records
  | some size => exact (List.take_sublist _ _).trans (List.drop_sublist _ _)

/-- A query does the same to records and to others that have the same fields of its columns. -/
theorem apply_map {f : ρ → σ} {records : List ρ}
    (h : ∀ r ∈ records, Record.AgreeOn q.fieldNames r (f r)) :
    q.apply (records.map f) = (q.apply records).map f := by
  have hfilter (r : ρ) (hr : r ∈ records) : q.filter.holds (f r) = q.filter.holds r :=
    (Filter.holds_of_agreeOn ((h r hr).subset (List.subset_append_left _ _))).symm
  have horder (a : ρ) (ha : a ∈ records) (b : ρ) (hb : b ∈ records) :
      SortKey.compareAll q.order a b = SortKey.compareAll q.order (f a) (f b) :=
    SortKey.compareAll_of_agreeOn ((h a ha).subset (List.subset_append_right _ _))
      ((h b hb).subset (List.subset_append_right _ _))
  have hselect : q.filter.select (records.map f) = (q.filter.select records).map f := by
    rw [Filter.select, Filter.select, List.filter_map]
    exact congrArg (List.map f) (List.filter_congr hfilter)
  have hsort : SortKey.sort q.order ((q.filter.select records).map f) =
      (SortKey.sort q.order (q.filter.select records)).map f := by
    refine (List.map_mergeSort fun a ha b hb => ?_).symm
    rw [horder a (List.mem_of_mem_filter ha) b (List.mem_of_mem_filter hb)]
  rw [apply, apply, hselect, hsort, page_map]

theorem mem_of_mem_apply {records : List ρ} {r : ρ} (h : r ∈ q.apply records) : r ∈ records := by
  have hsorted := (page_sublist q _).mem h
  exact List.mem_of_mem_filter ((SortKey.sort_perm q.order _).mem_iff.1 hsorted)

/-- The places of the selected records in the list, in the order in which they are returned. A
record with its place attached is the same record to a query. -/
def places (q : Query) (records : List ρ) : List Nat :=
  (q.apply records.zipIdx).map Prod.snd

theorem map_some_apply (q : Query) (records : List ρ) :
    (q.apply records).map some = (q.places records).map fun place => records[place]? := by
  have hattached : q.apply records = (q.apply records.zipIdx).map Prod.fst := by
    rw [← apply_map (f := Prod.fst) fun _ _ _ _ => rfl, List.zipIdx_map_fst]
  rw [hattached, places, List.map_map, List.map_map]
  refine List.map_congr_left fun entry hentry => ?_
  exact (List.mem_zipIdx_iff_getElem?.1 (mem_of_mem_apply hentry)).symm

/-- Of two lists of records that have the same fields of its columns, a query selects the same
places in the same order. -/
theorem places_eq_of_agreeOn {rs : List ρ} {ss : List σ}
    (h : List.Forall₂ (Record.AgreeOn q.fieldNames) rs ss) : q.places rs = q.places ss := by
  let pairs := (rs.zip ss).zipIdx
  have hleft : pairs.map (Prod.map Prod.fst id) = rs.zipIdx := by
    rw [← List.zipIdx_map, List.map_fst_zip h.length_eq.le]
  have hright : pairs.map (Prod.map Prod.snd id) = ss.zipIdx := by
    rw [← List.zipIdx_map, List.map_snd_zip h.length_eq.ge]
  have hagree : ∀ pair ∈ pairs, Record.AgreeOn q.fieldNames pair (Prod.map Prod.snd id pair) := by
    intro pair hpair
    have hzip : pair.1 ∈ rs.zip ss := List.fst_mem_of_mem_zipIdx hpair
    exact List.forall₂_zip h hzip
  rw [places, places, ← hleft, ← hright, apply_map (f := Prod.map Prod.fst id) fun _ _ _ _ => rfl,
    apply_map hagree, List.map_map, List.map_map]
  rfl

theorem fieldNames_subset {catalog : Catalog} {now : Timestamp} {filter order : String}
    (h : ofText catalog now filter order = .ok q) : q.fieldNames ⊆ catalog.fieldNames := by
  rcases Reading.bind_eq_ok_iff.1 h with ⟨f, hf, h⟩
  rcases Reading.bind_eq_ok_iff.1 h with ⟨keys, hkeys, h⟩
  cases h
  exact List.append_subset.2 ⟨Filter.fieldNames_subset hf, SortKey.fieldNames_subset hkeys⟩

/-- A query that is read from two texts shows nothing of a record but the columns of the catalog. Of
two lists of records that have the same fields there, it selects the same places in the same order,
on whatever page. Whether a filter holds of a record depends only on the columns in the filter, and
how records are ordered only on the columns to sort by. -/
theorem places_eq_of_ofText {catalog : Catalog} {now : Timestamp} {filter order : String}
    (h : ofText catalog now filter order = .ok q) :
    (∀ (size : Option Nat) (number : Nat) (rs : List ρ) (ss : List σ),
      List.Forall₂ (Record.AgreeOn catalog.fieldNames) rs ss →
        ∃ selected : List Nat,
          places ⟨q.filter, q.order, size, number⟩ rs = selected ∧
          places ⟨q.filter, q.order, size, number⟩ ss = selected ∧
          (apply ⟨q.filter, q.order, size, number⟩ rs).map some = selected.map (rs[·]?) ∧
          (apply ⟨q.filter, q.order, size, number⟩ ss).map some = selected.map (ss[·]?)) ∧
    (∀ (f : Filter) (r : ρ) (s : σ), Record.AgreeOn f.fieldNames r s → f.holds r = f.holds s) ∧
    ∀ (keys : List SortKey) (a b : ρ) (a' b' : σ),
      Record.AgreeOn (SortKey.fieldNames keys) a a' →
        Record.AgreeOn (SortKey.fieldNames keys) b b' →
          SortKey.compareAll keys a b = SortKey.compareAll keys a' b' := by
  refine ⟨fun size number rs ss hrecords => ?_, fun f r s => Filter.holds_of_agreeOn,
    fun keys a b a' b' => SortKey.compareAll_of_agreeOn⟩
  have hnames : q.fieldNames ⊆ catalog.fieldNames := fieldNames_subset h
  have hagree :
      List.Forall₂ (Record.AgreeOn (fieldNames ⟨q.filter, q.order, size, number⟩)) rs ss :=
    hrecords.imp fun r s hrs => hrs.subset hnames
  refine ⟨_, rfl, (places_eq_of_agreeOn hagree).symm, map_some_apply _ rs, ?_⟩
  rw [places_eq_of_agreeOn hagree]
  exact map_some_apply _ ss

theorem agreeOn_staff_iff {r : ρ} {s : σ} :
    Record.AgreeOn Filter.staff.fieldNames r s ↔
      Record.field r "id" = Record.field s "id" ∧ Record.field r "name" = Record.field s "name" ∧
        Record.field r "meta" = Record.field s "meta" ∧
          Record.field r "hired" = Record.field s "hired" := by
  simp [Record.AgreeOn, Catalog.fieldNames, Filter.staff]

theorem places_eq_of_ofText_second_page :
    ∃ q, ofText Filter.staff ⟨0, 0⟩ "FULLNAME ne 'x' and id gt 1" "fullname, id desc" = .ok q ∧
      Record.AgreeOn Filter.staff.fieldNames
        (Json.object [("id", .number (.integer 5)), ("name", .string "b"), ("pay", .boolean true)])
        (FieldMap.mk [("name", .string "b"), ("id", .integer 5)]) ∧
      Record.AgreeOn Filter.staff.fieldNames
        (Json.object [("id", .number (.integer 7)), ("name", .string "b")])
        (FieldMap.mk [("pay", .null), ("id", .integer 7), ("name", .string "b")]) ∧
      places ⟨q.filter, q.order, some 1, 1⟩ [
          Json.object [("id", .number (.integer 5)), ("name", .string "b"), ("pay", .boolean true)],
          Json.object [("id", .number (.integer 7)), ("name", .string "b")]] =
        places ⟨q.filter, q.order, some 1, 1⟩ [
          FieldMap.mk [("name", .string "b"), ("id", .integer 5)],
          FieldMap.mk [("pay", .null), ("id", .integer 7), ("name", .string "b")]] ∧
      q.filter.holds (Json.object [("id", .number (.integer 7)), ("name", .string "b")]) =
        q.filter.holds (FieldMap.mk [("pay", .null), ("id", .integer 7), ("name", .string "b")]) ∧
      SortKey.compareAll q.order
          (Json.object [("id", .number (.integer 7)), ("name", .string "b")]) (Json.object []) =
        SortKey.compareAll q.order
          (FieldMap.mk [("pay", .null), ("id", .integer 7), ("name", .string "b")])
          (FieldMap.mk [("pay", .null)]) := by
  have hread : ofText Filter.staff ⟨0, 0⟩ "FULLNAME ne 'x' and id gt 1" "fullname, id desc" =
      .ok {
        filter := ⟨[
          .leaf false (some .and) ⟨⟨"name", .string, ["FullName"], false, false⟩, []⟩
            (.criterion (.relation .notEqual) (some (.string "x"))),
          .leaf false none ⟨⟨"id", .integer, [], false, false⟩, []⟩
            (.criterion (.relation .greater) (some (.integer 1)))]⟩
        order := [⟨⟨"name", .string, ["FullName"], false, false⟩, .ascending⟩,
          ⟨⟨"id", .integer, [], false, false⟩, .descending⟩] } := by
    cbv
  have hfirst : Record.AgreeOn Filter.staff.fieldNames
      (Json.object [("id", .number (.integer 5)), ("name", .string "b"), ("pay", .boolean true)])
      (FieldMap.mk [("name", .string "b"), ("id", .integer 5)]) :=
    agreeOn_staff_iff.2 ⟨rfl, rfl, rfl, rfl⟩
  have hsecond : Record.AgreeOn Filter.staff.fieldNames
      (Json.object [("id", .number (.integer 7)), ("name", .string "b")])
      (FieldMap.mk [("pay", .null), ("id", .integer 7), ("name", .string "b")]) :=
    agreeOn_staff_iff.2 ⟨rfl, rfl, rfl, rfl⟩
  have hempty : Record.AgreeOn Filter.staff.fieldNames (Json.object [])
      (FieldMap.mk [("pay", .null)]) :=
    agreeOn_staff_iff.2 ⟨rfl, rfl, rfl, rfl⟩
  rcases places_eq_of_ofText (ρ := Json) (σ := FieldMap) hread with ⟨hplaces, hfilter, hsort⟩
  rcases hplaces (some 1) 1 _ _ (.cons hfirst (.cons hsecond .nil)) with ⟨selected, hl, hr, -⟩
  refine ⟨_, hread, hfirst, hsecond, hl.trans hr.symm, hfilter _ _ _ ?_, hsort _ _ _ _ _ ?_ ?_⟩
  · exact hsecond.subset (by decide)
  · exact hsecond.subset (by decide)
  · exact hempty.subset (by decide)

end Query

end RecordQuery
