import TrapHandler.StoreLoaders

/-!
# Rows that cannot be converted

The three loaders of `PocoOdbcStore` pass over a row for which they get the null pointer. The
constructors of thresholds and file systems return it for a row with a value of a wrong type; that
of hosts lets the exception through, so one such row ends the loading of all hosts. A threshold that
is too long for the log even ends the process.
-/

namespace TrapHandler

open Ownership

inductive ColumnType where
  | int
  | bigint
  | text
  deriving DecidableEq, Repr

def ColumnType.reads : ColumnType → SqlValue → Bool
  | .int, .int _ => true
  | .bigint, .bigint _ => true
  | .text, .text _ => true
  | _, _ => false

/-- How a column is read: as what type, and whether it may be null. -/
structure Column where
  type : ColumnType
  nullable : Bool := false
  deriving DecidableEq, Repr

def Column.accepts (column : Column) (value : SqlValue) : Bool :=
  column.type.reads value || (column.nullable && value == .null)

def RecordRow.fits (rs : RecordRow) (columns : List Column) : Bool :=
  columns.zipIdx.all fun (column, i) => rs[i]?.any column.accepts

def hostColumns : List Column :=
  [⟨.int, false⟩, ⟨.text, false⟩, ⟨.text, false⟩, ⟨.text, true⟩, ⟨.text, true⟩, ⟨.int, true⟩,
    ⟨.int, true⟩, ⟨.text, true⟩, ⟨.int, true⟩, ⟨.text, true⟩, ⟨.text, false⟩, ⟨.int, false⟩,
    ⟨.bigint, false⟩]

section

variable (rs : RecordRow) (i : ℕ)

theorem isSome_extractInt :
    (rs.extractInt i).isSome = rs[i]?.any (Column.accepts ⟨.int, false⟩) := by
  rw [RecordRow.extractInt]
  cases rs[i]? with
  | none => rfl
  | some value => cases value with
    | _ => rfl

theorem isSome_extractInt64 :
    (rs.extractInt64 i).isSome = rs[i]?.any (Column.accepts ⟨.bigint, false⟩) := by
  rw [RecordRow.extractInt64]
  cases rs[i]? with
  | none => rfl
  | some value => cases value with
    | _ => rfl

theorem isSome_extractWstring :
    (rs.extractWstring i).isSome = rs[i]?.any (Column.accepts ⟨.text, false⟩) := by
  rw [RecordRow.extractWstring]
  cases rs[i]? with
  | none => rfl
  | some value => cases value with
    | _ => rfl

theorem isSome_intOr (n : Int32) :
    (rs.intOr i n).isSome = rs[i]?.any (Column.accepts ⟨.int, true⟩) := by
  rw [RecordRow.intOr, RecordRow.isEmpty, RecordRow.extractInt]
  cases rs[i]? with
  | none => rfl
  | some value => cases value with
    | _ => rfl

theorem isSome_wstringOr (s : WStr) :
    (rs.wstringOr i s).isSome = rs[i]?.any (Column.accepts ⟨.text, true⟩) := by
  rw [RecordRow.wstringOr, RecordRow.isEmpty, RecordRow.extractWstring]
  cases rs[i]? with
  | none => rfl
  | some value => cases value with
    | _ => rfl

end

theorem isSome_bind_of {α β : Type} {x : Option α} {f : α → Option β} {b c : Bool}
    (hx : x.isSome = b) (hf : ∀ a, (f a).isSome = c) : (x >>= f).isSome = (b && c) := by
  cases x with
  | none =>
    rw [← hx]
    rfl
  | some a =>
    rw [← hx, ← hf a]
    rfl

theorem isSome_createHostFromDbRow (rs : RecordRow) :
    (createHostFromDbRow rs).isSome = rs.fits hostColumns :=
  isSome_bind_of (isSome_extractInt rs 0) fun _ =>
    isSome_bind_of (isSome_extractWstring rs 1) fun _ =>
    isSome_bind_of (isSome_extractWstring rs 2) fun _ =>
    isSome_bind_of (isSome_wstringOr rs 3 _) fun _ =>
    isSome_bind_of (isSome_wstringOr rs 4 _) fun _ =>
    isSome_bind_of (isSome_intOr rs 5 _) fun _ =>
    isSome_bind_of (isSome_intOr rs 6 _) fun _ =>
    isSome_bind_of (isSome_wstringOr rs 7 _) fun _ =>
    isSome_bind_of (isSome_intOr rs 8 _) fun _ =>
    isSome_bind_of (isSome_wstringOr rs 9 _) fun _ =>
    isSome_bind_of (isSome_extractWstring rs 10) fun _ =>
    isSome_bind_of (isSome_extractInt rs 11) fun _ =>
    isSome_bind_of (isSome_extractInt64 rs 12) fun _ => rfl

section

variable {α : Type}

/-- The loader returns, and does so with the objects of the rows that can be converted. -/
def ReturnsConvertible (load : Statement → List Ptr → Heap α → Loading α)
    (convert : RecordRow → Option α) (rows : List RecordRow) : Prop :=
  ∀ objects heap, (load { moveFirst := .ofRows rows } objects heap).thrown = false ∧
    (load { moveFirst := .ofRows rows } objects heap).ended = false ∧
      Holds (load { moveFirst := .ofRows rows } objects heap).heap
        (load { moveFirst := .ofRows rows } objects heap).objects (rows.filterMap convert)

variable {convert : RecordRow → Option α} {rethrows : Bool}

theorem breaks_ofRows_iff (rows : List RecordRow) :
    PocoOdbcStore.Breaks convert rethrows (.ofRows rows) ↔
      ∃ rs ∈ rows, convert rs = none ∧ (rethrows = true ∨ rs.extractInt 0 = none) := by
  induction rows with
  | nil =>
    simp only [RecordCursor.ofRows, PocoOdbcStore.Breaks, List.not_mem_nil, false_and, exists_false]
  | cons rs rest ih =>
    rw [RecordCursor.ofRows, PocoOdbcStore.Breaks, ih, List.exists_mem_cons_iff]

theorem returnsConvertible_iff (rows : List RecordRow) :
    ReturnsConvertible (PocoOdbcStore.load (PocoOdbcStore.createFromDbRow convert rethrows)
        PocoOdbcStore.anyText)
        convert rows ↔
      ¬ PocoOdbcStore.Breaks convert rethrows (.ofRows rows) := by
  have hthrown : ∀ objects heap,
      (PocoOdbcStore.load (PocoOdbcStore.createFromDbRow convert rethrows) PocoOdbcStore.anyText
        { moveFirst := .ofRows rows } objects heap).thrown = true ↔
      PocoOdbcStore.Breaks convert rethrows (.ofRows rows) := by
    intro objects heap
    rw [PocoOdbcStore.load_thrown_iff]
    exact or_iff_right Bool.false_ne_true
  constructor
  · intro h hbreaks
    have hreturned := (h [] {}).1
    rw [(hthrown [] {}).mpr hbreaks] at hreturned
    cases hreturned
  · intro h objects heap
    have hreturned := Bool.eq_false_iff.mpr fun hbroken => h ((hthrown objects heap).mp hbroken)
    have hholds := PocoOdbcStore.load_holds hreturned
    rw [RecordCursor.rows_ofRows] at hholds
    exact ⟨hreturned, PocoOdbcStore.load_ended _, hholds⟩

theorem returnsConvertible_of_null {rows : List RecordRow} (h : HasIds rows) :
    ReturnsConvertible (PocoOdbcStore.load (PocoOdbcStore.createFromDbRow convert false)
        PocoOdbcStore.anyText)
      convert rows := by
  rw [returnsConvertible_iff, breaks_ofRows_iff]
  rintro ⟨rs, hrs, _, hbroken⟩
  have hid := h rs hrs
  rw [hbroken.resolve_left Bool.false_ne_true] at hid
  cases hid

end

theorem loadHosts_returnsConvertible_iff (rows : List RecordRow) :
    ReturnsConvertible PocoOdbcStore.loadHosts createHostFromDbRow rows ↔
      ∀ rs ∈ rows, rs.fits hostColumns = true := by
  have hload : ReturnsConvertible PocoOdbcStore.loadHosts createHostFromDbRow rows ↔
      ¬ PocoOdbcStore.Breaks createHostFromDbRow true (.ofRows rows) := returnsConvertible_iff rows
  rw [hload, breaks_ofRows_iff]
  simp only [true_or, and_true, not_exists, not_and]
  apply forall₂_congr
  intro rs _
  rw [← isSome_createHostFromDbRow, Option.isSome_iff_ne_none]

/-- The loader of thresholds does without the rows that cannot be converted exactly if all others have
room in the log. -/
theorem loadThresholds_returnsConvertible_iff {R : Type} (fixed2 : ℚ → WStr)
    (assign : WStr → Option R) {rows : List RecordRow} (h : HasIds rows) :
    ReturnsConvertible (PocoOdbcStore.loadAndLogThresholds fixed2 assign)
        (createThresholdFromDbRow assign) rows ↔
      ∀ rs ∈ rows, rs.Loggable fixed2 assign := by
  constructor
  · intro hreturns rs hrs
    by_contra hlong
    have hagrees := PocoOdbcStore.loadAndLogThresholds_agrees fixed2 assign rows [] {}
    rw [loadThresholds_ended h hrs hlong] at hagrees
    have hended := (hreturns [] {}).2.1
    rw [hagrees.2] at hended
    cases hended
  · intro hlog objects heap
    have hagrees := PocoOdbcStore.loadAndLogThresholds_agrees fixed2 assign rows objects heap
    rwa [loadThresholds_returned h hlog] at hagrees

/-- The three loaders do without the rows that cannot be converted exactly if there is none among
the hosts, and no threshold that is too long for the log. -/
theorem loaders_returnConvertible_iff {R : Type} (fixed2 : ℚ → WStr) (assign : WStr → Option R)
    {hosts fileSystems thresholds : List RecordRow} (hfileSystems : HasIds fileSystems)
    (hthresholds : HasIds thresholds) :
    (ReturnsConvertible PocoOdbcStore.loadHosts createHostFromDbRow hosts ∧
        ReturnsConvertible PocoOdbcStore.loadFileSystems fileSystemOfRow fileSystems ∧
        ReturnsConvertible (PocoOdbcStore.loadAndLogThresholds fixed2 assign)
          (createThresholdFromDbRow assign) thresholds) ↔
      (∀ rs ∈ hosts, rs.fits hostColumns = true) ∧
        ∀ rs ∈ thresholds, rs.Loggable fixed2 assign := by
  have hconverted : ReturnsConvertible PocoOdbcStore.loadFileSystems fileSystemOfRow fileSystems :=
    returnsConvertible_of_null hfileSystems
  rw [loadHosts_returnsConvertible_iff, loadThresholds_returnsConvertible_iff _ _ hthresholds,
    and_iff_right hconverted]

def hostRow (id : Int32) (statusChangeTime : SqlValue) : RecordRow :=
  [.int id, .text (wcs "testsystem"), .text (wcs "10.0.0.1"), .null, .null, .null, .null, .null,
    .null, .null, .text (wcs "WINDOWS"), .int 0, statusChangeTime]

def thresholdRow (hostExpr : WStr) : RecordRow :=
  [.int 1, .text hostExpr, .text (wcs ".*"), .int 1000, .int 500, .float 90, .float 95,
    .text (wcs "Minor"), .text (wcs "Major"), .int 0, .int 0]

/-- Rows without values are passed over where there are only hosts that can be read. -/
theorem loaders_returnConvertible_hostRow :
    ReturnsConvertible PocoOdbcStore.loadHosts createHostFromDbRow [hostRow 1 (.bigint 0)] ∧
      ReturnsConvertible PocoOdbcStore.loadFileSystems fileSystemOfRow [[.int 1, .null]] ∧
      ReturnsConvertible (PocoOdbcStore.loadAndLogThresholds (R := WStr) wholeFixed2 some)
        (createThresholdFromDbRow some) [[.int 1, .null], thresholdRow (wcs ".*")] :=
  (loaders_returnConvertible_iff wholeFixed2 some (List.forall_mem_singleton.mpr rfl)
    (by unfold HasIds; decide)).mpr
      ⟨List.forall_mem_singleton.mpr rfl, by
        intro rs hrs t ht
        rw [List.mem_pair] at hrs
        rcases hrs with rfl | rfl
        · cases ht
        · obtain rfl := Option.some.inj ht
          decide⟩

/-- One host without the time of its status keeps the other from being loaded. -/
theorem hostRow_not_returned :
    HasIds [hostRow 1 (.bigint 0), hostRow 2 .null] ∧
      ¬ ReturnsConvertible PocoOdbcStore.loadHosts createHostFromDbRow
        [hostRow 1 (.bigint 0), hostRow 2 .null] := by
  constructor
  · intro rs hrs
    rw [List.mem_pair] at hrs
    rcases hrs with rfl | rfl
    · rfl
    · rfl
  · intro h
    have hfits := (loadHosts_returnsConvertible_iff _).mp h (hostRow 2 .null)
      (List.mem_cons_of_mem _ List.mem_cons_self)
    cases hfits

end TrapHandler
