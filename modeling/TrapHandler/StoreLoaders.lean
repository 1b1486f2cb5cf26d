import TrapHandler.ModelCache
import TrapHandler.Ownership

/-!
# Loading objects from the database

The three loaders of `PocoOdbcStore` create an object for each row and collect the pointers. A
constructor of a row deletes its object where a value cannot be converted; the constructor of hosts
throws the exception again, the other two return the null pointer. A loader deletes what it has
collected when an exception reaches it, and throws it again.
-/

namespace TrapHandler

open Ownership

/-- What the record set gives from a move on: an exception, its end, or a row and the next move. -/
inductive RecordCursor where
  | throws
  | done
  | row (rs : RecordRow) (moveNext : RecordCursor)
  deriving DecidableEq, Repr

def RecordCursor.ofRows : List RecordRow → RecordCursor
  | [] => .done
  | rs :: rest => .row rs (ofRows rest)

namespace RecordCursor

def rows : RecordCursor → List RecordRow
  | .throws => []
  | .done => []
  | .row rs moveNext => rs :: moveNext.rows

theorem rows_ofRows (rows : List RecordRow) : (ofRows rows).rows = rows := by
  induction rows with
  | nil => rfl
  | cons rs rest ih => rw [ofRows, RecordCursor.rows, ih]

end RecordCursor

/-- A statement: whether its preparation or execution throws, and the record set otherwise. -/
structure Statement where
  executeThrows : Bool := false
  moveFirst : RecordCursor
  deriving DecidableEq, Repr

/-- What the constructor of a row ends with: an exception, or the pointer it returns. -/
inductive RowObject where
  | thrown
  | null
  | object (p : Ptr)
  deriving DecidableEq, Repr

/-- The end of a loader: whether it throws, the vector of the caller, the heap, and whether the
process has ended within. -/
structure Loading (α : Type) where
  thrown : Bool
  objects : List Ptr
  heap : Heap α
  ended : Bool := false
  deriving DecidableEq, Repr

/-- The values of a file system row in the order they are read. -/
def fileSystemOfRow (rs : RecordRow) : Option FileSystem := do
  let id ← rs.extractInt 0
  let name ← rs.extractWstring 1
  let size ← rs.extractInt 2
  let freeMb ← rs.extractInt 3
  let status ← rs.extractInt 4
  let thresholdId ← rs.intOr 5 (-1)
  let hostId ← rs.extractInt 6
  let statusChangeTime ← rs.extractInt64 7
  pure {
    id, name, thresholdId, hostId, statusChangeTime
    size := size.toInt64
    freeMb := freeMb.toInt64
    status := { status } }

namespace PocoOdbcStore

section

variable {α : Type}

/-- `rethrows` says whether the handler ends with `throw`. The members are written as one: nothing
reads them before the last column has been converted. -/
def createFromDbRow (convert : RecordRow → Option α) (rethrows : Bool) (rs : RecordRow)
    (heap : Heap α) : RowObject × Heap α :=
  let (newObject, heap) := heap.new
  match convert rs with
  | some object => (.object newObject, heap.write newObject object)
  | none => (if rethrows then .thrown else .null, heap.delete newObject)

/-- The loop over the rows. An object is written to the log, for which `log` says whether its text has
room. Where there is no object, the id of the row is read for the log. -/
def loadRows (create : RecordRow → Heap α → RowObject × Heap α) (log : α → Bool) :
    RecordCursor → List Ptr → Heap α → Loading α
  | .throws, objects, heap => { thrown := true, objects, heap }
  | .done, objects, heap => { thrown := false, objects, heap }
  | .row rs moveNext, objects, heap =>
    match create rs heap with
    | (.thrown, heap) => { thrown := true, objects, heap }
    | (.null, heap) =>
      match rs.extractInt 0 with
      | none => { thrown := true, objects, heap }
      | some _ => loadRows create log moveNext objects heap
    | (.object newObject, heap) =>
      if (heap.get newObject).all log then
        loadRows create log moveNext (objects ++ [newObject]) heap
      else { thrown := false, objects, heap, ended := true }

/-- The `try` block of a loader. -/
def tryLoad (create : RecordRow → Heap α → RowObject × Heap α) (log : α → Bool)
    (statement : Statement) (objects : List Ptr) (heap : Heap α) : Loading α :=
  if statement.executeThrows then { thrown := true, objects, heap }
  else loadRows create log statement.moveFirst objects heap

/-- The vector is cleared first, and by the handler once its objects have been deleted. -/
def load (create : RecordRow → Heap α → RowObject × Heap α) (log : α → Bool)
    (statement : Statement) (_ : List Ptr) (heap : Heap α) : Loading α :=
  let r := tryLoad create log statement [] heap
  if r.thrown then { thrown := true, objects := [], heap := r.heap.deleteAll r.objects } else r

def hasText {R : Type} (fixed2 : ℚ → WStr) (newThresh : Threshold R) : Bool :=
  (newThresh.toWstring fixed2).isSome

/-- Any text has room in a `std::wstring`. -/
def anyText (_ : α) : Bool := true

end

def createHostFromDbRow : RecordRow → Heap Host → RowObject × Heap Host :=
  createFromDbRow TrapHandler.createHostFromDbRow true

def createFileSystemFromDbRow : RecordRow → Heap FileSystem → RowObject × Heap FileSystem :=
  createFromDbRow fileSystemOfRow false

def createThresholdFromDbRow {R : Type} (assign : WStr → Option R) :
    RecordRow → Heap (Threshold R) → RowObject × Heap (Threshold R) :=
  createFromDbRow (TrapHandler.createThresholdFromDbRow assign) false

def loadHosts : Statement → List Ptr → Heap Host → Loading Host :=
  load createHostFromDbRow anyText

def loadFileSystems : Statement → List Ptr → Heap FileSystem → Loading FileSystem :=
  load createFileSystemFromDbRow anyText

/-- The loader with what the text of a threshold does to it. -/
def loadAndLogThresholds {R : Type} (fixed2 : ℚ → WStr) (assign : WStr → Option R) :
    Statement → List Ptr → Heap (Threshold R) → Loading (Threshold R) :=
  load (createThresholdFromDbRow assign) (hasText fixed2)

/-- The loader where the text of every threshold has room. -/
def loadThresholds {R : Type} (assign : WStr → Option R) :
    Statement → List Ptr → Heap (Threshold R) → Loading (Threshold R) :=
  load (createThresholdFromDbRow assign) anyText

section

variable {α : Type} {convert : RecordRow → Option α} {rethrows : Bool} {before heap : Heap α}
  {objects : List Ptr}

theorem get_write_new (object : α) :
    (heap.new.2.write heap.size object).get heap.size = some object := by
  apply Heap.get_write_self
  rw [Heap.size_new]
  exact Nat.lt_succ_self _

theorem createFromDbRow_of_some {rs : RecordRow} {object : α} (h : convert rs = some object) :
    createFromDbRow convert rethrows rs heap =
      (.object heap.size, heap.new.2.write heap.size object) := by
  simp only [createFromDbRow, h]
  rfl

theorem createFromDbRow_of_none {rs : RecordRow} (h : convert rs = none) :
    createFromDbRow convert rethrows rs heap =
      (if rethrows then .thrown else .null, heap.new.2.delete heap.size) := by
  simp only [createFromDbRow, h]
  rfl

theorem loadRows_of_loggable {rs : RecordRow} {moveNext : RecordCursor} {object : α}
    {log : α → Bool} (h : convert rs = some object) (hlog : log object = true) :
    loadRows (createFromDbRow convert rethrows) log (.row rs moveNext) objects heap =
      loadRows (createFromDbRow convert rethrows) log moveNext (objects ++ [heap.size])
        (heap.new.2.write heap.size object) := by
  rw [loadRows, createFromDbRow_of_some h]
  dsimp only
  rw [get_write_new, Option.all_some, if_pos hlog]

theorem loadRows_of_not_loggable {rs : RecordRow} {moveNext : RecordCursor} {object : α}
    {log : α → Bool} (h : convert rs = some object) (hlog : log object = false) :
    loadRows (createFromDbRow convert rethrows) log (.row rs moveNext) objects heap =
      { thrown := false, objects, heap := heap.new.2.write heap.size object, ended := true } := by
  rw [loadRows, createFromDbRow_of_some h]
  dsimp only
  rw [get_write_new, Option.all_some, if_neg (Bool.eq_false_iff.mp hlog)]

theorem owned_object (h : Owned before heap objects) (object : α) :
    Owned before (heap.new.2.write heap.size object) (objects ++ [heap.size]) :=
  h.new.write object (List.mem_append_right _ List.mem_cons_self)

theorem owned_failed (h : Owned before heap objects) :
    Owned before (heap.new.2.delete heap.size) objects :=
  h.new.delete (List.perm_append_singleton _ _)

theorem owned_loadRows (cursor : RecordCursor) (h : Owned before heap objects) :
    Owned before (loadRows (createFromDbRow convert rethrows) anyText cursor objects heap).heap
      (loadRows (createFromDbRow convert rethrows) anyText cursor objects heap).objects := by
  induction cursor generalizing heap objects with
  | throws => exact h
  | done => exact h
  | row rs moveNext ih =>
    cases hconvert : convert rs with
    | some object =>
      rw [loadRows_of_loggable hconvert rfl]
      exact ih (owned_object h object)
    | none =>
      rw [loadRows, createFromDbRow_of_none hconvert]
      cases rethrows with
      | true => exact owned_failed h
      | false =>
        cases rs.extractInt 0 with
        | none => exact owned_failed h
        | some id => exact ih (owned_failed h)

theorem owned_tryLoad (statement : Statement) (h : Owned before heap objects) :
    Owned before (tryLoad (createFromDbRow convert rethrows) anyText statement objects heap).heap
      (tryLoad (createFromDbRow convert rethrows) anyText statement objects heap).objects := by
  rw [tryLoad]
  split_ifs
  · exact h
  · exact owned_loadRows statement.moveFirst h

theorem load_of_thrown {statement : Statement}
    (h : (load (createFromDbRow convert rethrows) anyText statement objects heap).thrown = true) :
    (load (createFromDbRow convert rethrows) anyText statement objects heap).objects = [] ∧
      Owned heap (load (createFromDbRow convert rethrows) anyText statement objects heap).heap
        [] := by
  have howned : Owned heap (tryLoad (createFromDbRow convert rethrows) anyText statement [] heap).heap
      (tryLoad (createFromDbRow convert rethrows) anyText statement [] heap).objects :=
    owned_tryLoad statement (Owned.refl heap)
  rw [load] at h ⊢
  by_cases hthrown :
      (tryLoad (createFromDbRow convert rethrows) anyText statement [] heap).thrown = true
  · rw [if_pos hthrown]
    exact ⟨rfl, howned.deleteAll⟩
  · rw [if_neg hthrown] at h
    exact absurd h hthrown

theorem loadRows_ended (cursor : RecordCursor) :
    (loadRows (createFromDbRow convert rethrows) anyText cursor objects heap).ended = false := by
  induction cursor generalizing heap objects with
  | throws => rfl
  | done => rfl
  | row rs moveNext ih =>
    cases hconvert : convert rs with
    | some object =>
      rw [loadRows_of_loggable hconvert rfl]
      exact ih
    | none =>
      rw [loadRows, createFromDbRow_of_none hconvert]
      cases rethrows with
      | true => rfl
      | false =>
        cases rs.extractInt 0 with
        | none => rfl
        | some id => exact ih

theorem load_ended (statement : Statement) :
    (load (createFromDbRow convert rethrows) anyText statement objects heap).ended = false := by
  have htry : (tryLoad (createFromDbRow convert rethrows) anyText statement [] heap).ended =
      false := by
    rw [tryLoad]
    split_ifs
    · rfl
    · exact loadRows_ended statement.moveFirst
  rw [load]
  split_ifs
  · rfl
  · exact htry

/-- A move throws, or a row gives no object and an exception with it. -/
def Breaks (convert : RecordRow → Option α) (rethrows : Bool) : RecordCursor → Prop
  | .throws => True
  | .done => False
  | .row rs moveNext =>
    (convert rs = none ∧ (rethrows = true ∨ rs.extractInt 0 = none)) ∨
      Breaks convert rethrows moveNext

theorem loadRows_thrown_iff (cursor : RecordCursor) :
    (loadRows (createFromDbRow convert rethrows) anyText cursor objects heap).thrown = true ↔
      Breaks convert rethrows cursor := by
  induction cursor generalizing heap objects with
  | throws => exact iff_of_true rfl trivial
  | done => exact iff_of_false Bool.false_ne_true id
  | row rs moveNext ih =>
    rw [Breaks]
    cases hconvert : convert rs with
    | some object =>
      rw [loadRows_of_loggable hconvert rfl]
      simp only [reduceCtorEq, false_and, false_or]
      exact ih
    | none =>
      rw [loadRows, createFromDbRow_of_none hconvert]
      cases rethrows with
      | true => exact iff_of_true rfl (.inl ⟨rfl, .inl rfl⟩)
      | false =>
        cases hid : rs.extractInt 0 with
        | none => exact iff_of_true rfl (.inl ⟨rfl, .inr rfl⟩)
        | some id =>
          simp only [reduceCtorEq, Bool.false_eq_true, or_self, and_false, false_or]
          exact ih

theorem thrown_load (create : RecordRow → Heap α → RowObject × Heap α) (log : α → Bool)
    (statement : Statement) :
    (load create log statement objects heap).thrown =
      (tryLoad create log statement [] heap).thrown := by
  rw [load]
  cases h : (tryLoad create log statement [] heap).thrown with
  | true => rfl
  | false => exact h

theorem load_thrown_iff (statement : Statement) :
    (load (createFromDbRow convert rethrows) anyText statement objects heap).thrown = true ↔
      statement.executeThrows = true ∨ Breaks convert rethrows statement.moveFirst := by
  rw [thrown_load, tryLoad]
  by_cases h : statement.executeThrows = true
  · rw [if_pos h]
    exact iff_of_true rfl (.inl h)
  · rw [if_neg h, loadRows_thrown_iff, or_iff_right h]

theorem holds_object {values : List α} (howned : Owned before heap objects)
    (hvalues : Holds heap objects values) (object : α) :
    Holds (heap.new.2.write heap.size object) (objects ++ [heap.size]) (values ++ [object]) := by
  apply Holds.concat
  · apply hvalues.congr
    intro p hp
    have hlt := (howned.bounds hp).2
    rw [Heap.get_write_of_ne _ hlt.ne', Heap.get_new hlt]
  · exact get_write_new object

theorem holds_failed {values : List α} (howned : Owned before heap objects)
    (hvalues : Holds heap objects values) :
    Holds (heap.new.2.delete heap.size) objects values := by
  apply hvalues.congr
  intro p hp
  have hlt := (howned.bounds hp).2
  rw [Heap.get_delete_of_ne hlt.ne', Heap.get_new hlt]

theorem loadRows_holds (cursor : RecordCursor) {values : List α}
    (howned : Owned before heap objects) (hvalues : Holds heap objects values)
    (h : (loadRows (createFromDbRow convert rethrows) anyText cursor objects heap).thrown = false) :
    Holds (loadRows (createFromDbRow convert rethrows) anyText cursor objects heap).heap
      (loadRows (createFromDbRow convert rethrows) anyText cursor objects heap).objects
      (values ++ cursor.rows.filterMap convert) := by
  induction cursor generalizing heap objects values with
  | throws => cases h
  | done =>
    rw [RecordCursor.rows, List.filterMap_nil, List.append_nil]
    exact hvalues
  | row rs moveNext ih =>
    rw [RecordCursor.rows, List.filterMap_cons]
    cases hconvert : convert rs with
    | some object =>
      rw [loadRows_of_loggable hconvert rfl] at h ⊢
      have hnext := holds_object howned hvalues object
      have hrest := ih (owned_object howned object) hnext h
      rwa [List.append_assoc, List.singleton_append] at hrest
    | none =>
      rw [loadRows, createFromDbRow_of_none hconvert] at h ⊢
      have hnext := holds_failed howned hvalues
      cases rethrows with
      | true => cases h
      | false =>
        cases hid : rs.extractInt 0 with
        | none =>
          simp only [hid] at h
          cases h
        | some id =>
          simp only [hid] at h ⊢
          exact ih (owned_failed howned) hnext h

theorem load_holds {statement : Statement}
    (h : (load (createFromDbRow convert rethrows) anyText statement objects heap).thrown = false) :
    Holds (load (createFromDbRow convert rethrows) anyText statement objects heap).heap
      (load (createFromDbRow convert rethrows) anyText statement objects heap).objects
      (statement.moveFirst.rows.filterMap convert) := by
  rw [thrown_load] at h
  rw [load, if_neg (Bool.eq_false_iff.mp h)]
  rw [tryLoad] at h ⊢
  by_cases hexecute : statement.executeThrows = true
  · rw [if_pos hexecute] at h
    cases h
  · rw [if_neg hexecute] at h ⊢
    exact loadRows_holds statement.moveFirst (Owned.refl heap) (Holds.nil heap) h

theorem loadRows_of_map_eq {rows : List RecordRow} {values : List α}
    (h : rows.map convert = values.map some) :
    loadRows (createFromDbRow convert rethrows) anyText (.ofRows rows) objects heap =
      { thrown := false
        objects := objects ++ List.range' heap.size values.length
        heap := { heap with cells := heap.cells ++ values.map some } } := by
  induction rows generalizing heap objects values with
  | nil =>
    rw [List.map_nil, eq_comm, List.map_eq_nil_iff] at h
    subst h
    simp only [RecordCursor.ofRows, loadRows, List.length_nil, List.range'_zero, List.append_nil,
      List.map_nil]
  | cons rs rest ih =>
    cases values with
    | nil => cases h
    | cons value values =>
      rw [List.map_cons, List.map_cons, List.cons.injEq] at h
      obtain ⟨hvalue, hvalues⟩ := h
      rw [RecordCursor.ofRows, loadRows_of_loggable hvalue rfl]
      rw [ih hvalues, Heap.write_new, List.length_cons, List.range'_succ, List.map_cons]
      simp only [Heap.size, List.length_append, List.length_singleton, List.append_assoc,
        List.singleton_append]

/-- What a loader ends with on the heap is what it returns for the rows. -/
def Agrees (loading : Loading α) : Option (List α) → Prop
  | none => loading.thrown = true
  | some values => loading.thrown = false ∧ Holds loading.heap loading.objects values

theorem load_agrees {rows : List RecordRow} {loaded : Option (List α)}
    (h : (Breaks convert rethrows (.ofRows rows) ∧ loaded = none) ∨
      (¬ Breaks convert rethrows (.ofRows rows) ∧ loaded = some (rows.filterMap convert))) :
    Agrees (load (createFromDbRow convert rethrows) anyText { moveFirst := .ofRows rows } objects
      heap) loaded := by
  have hthrown : (load (createFromDbRow convert rethrows) anyText { moveFirst := .ofRows rows }
      objects heap).thrown = true ↔ Breaks convert rethrows (.ofRows rows) := by
    rw [load_thrown_iff]
    exact or_iff_right Bool.false_ne_true
  rcases h with ⟨hbreaks, rfl⟩ | ⟨hbreaks, rfl⟩
  · exact hthrown.mpr hbreaks
  · have hreturned := Bool.eq_false_iff.mpr fun h => hbreaks (hthrown.mp h)
    have hholds := load_holds hreturned
    rw [RecordCursor.rows_ofRows] at hholds
    exact ⟨hreturned, hholds⟩

end

theorem loadHosts_agrees (rows : List RecordRow) (objects : List Ptr) (heap : Heap Host) :
    Agrees (loadHosts { moveFirst := .ofRows rows } objects heap)
      (TrapHandler.loadHosts rows) := by
  apply load_agrees
  induction rows with
  | nil => exact .inr ⟨id, rfl⟩
  | cons rs rest ih =>
    rw [RecordCursor.ofRows, Breaks, List.filterMap_cons, TrapHandler.loadHosts]
    cases hconvert : TrapHandler.createHostFromDbRow rs with
    | none => exact .inl ⟨.inl ⟨rfl, .inl rfl⟩, rfl⟩
    | some host =>
      simp only [reduceCtorEq, false_and, false_or]
      rcases ih with ⟨hbreaks, hnone⟩ | ⟨hbreaks, hsome⟩
      · rw [hnone]
        exact .inl ⟨hbreaks, rfl⟩
      · rw [hsome]
        exact .inr ⟨hbreaks, rfl⟩

theorem map_createHostFromDbRow {rows : List RecordRow} {loaded : List Host}
    (h : TrapHandler.loadHosts rows = some loaded) :
    rows.map TrapHandler.createHostFromDbRow = loaded.map some := by
  induction rows generalizing loaded with
  | nil =>
    obtain rfl := Option.some.inj h
    rfl
  | cons rs rest ih =>
    rw [TrapHandler.loadHosts] at h
    cases hhost : TrapHandler.createHostFromDbRow rs with
    | none =>
      rw [hhost] at h
      cases h
    | some host =>
      cases hrest : TrapHandler.loadHosts rest with
      | none =>
        rw [hhost, hrest] at h
        cases h
      | some hosts =>
        rw [hhost, hrest] at h
        obtain rfl := Option.some.inj h
        rw [List.map_cons, List.map_cons, hhost, ih hrest]

/-- What the loader of thresholds ends with on the heap is what it does for the rows. -/
def AgreesWith {α : Type} (loading : Loading α) : StoreLoad α → Prop
  | .returned values =>
    loading.thrown = false ∧ loading.ended = false ∧
      Holds loading.heap loading.objects values
  | .thrown => loading.thrown = true
  | .ended => loading.thrown = false ∧ loading.ended = true

section

variable {R : Type} (fixed2 : ℚ → WStr) (assign : WStr → Option R)

theorem loadRows_agreesWith (rows : List RecordRow) {before heap : Heap (Threshold R)}
    {objects : List Ptr} {values : List (Threshold R)} (howned : Owned before heap objects)
    (hvalues : Holds heap objects values) :
    AgreesWith (loadRows (createThresholdFromDbRow assign) (hasText fixed2) (.ofRows rows) objects
        heap)
      (match TrapHandler.loadThresholds fixed2 assign rows with
        | .returned thresholds => .returned (values ++ thresholds)
        | r => r) := by
  induction rows generalizing heap objects values with
  | nil =>
    rw [TrapHandler.loadThresholds]
    dsimp only
    rw [List.append_nil]
    exact ⟨rfl, rfl, hvalues⟩
  | cons rs rest ih =>
    rw [RecordCursor.ofRows, TrapHandler.loadThresholds]
    cases hconvert : TrapHandler.createThresholdFromDbRow assign rs with
    | none =>
      rw [createThresholdFromDbRow, loadRows, createFromDbRow_of_none hconvert]
      cases rs.extractInt 0 with
      | none => rfl
      | some id => exact ih (owned_failed howned) (holds_failed howned hvalues)
    | some newThresh =>
      dsimp only
      cases htext : newThresh.toWstring fixed2 with
      | none =>
        have hlog : hasText fixed2 newThresh = false := by rw [hasText, htext]; rfl
        rw [createThresholdFromDbRow, loadRows_of_not_loggable hconvert hlog]
        exact ⟨rfl, rfl⟩
      | some text =>
        have hlog : hasText fixed2 newThresh = true := by rw [hasText, htext]; rfl
        have hrest := ih (owned_object howned newThresh) (holds_object howned hvalues newThresh)
        rw [createThresholdFromDbRow] at hrest ⊢
        rw [loadRows_of_loggable hconvert hlog]
        cases hload : TrapHandler.loadThresholds fixed2 assign rest with
        | returned thresholds =>
          rw [hload] at hrest
          dsimp only at hrest ⊢
          rwa [List.append_assoc, List.singleton_append] at hrest
        | thrown =>
          rw [hload] at hrest
          exact hrest
        | ended =>
          rw [hload] at hrest
          exact hrest

theorem loadAndLogThresholds_agrees (rows : List RecordRow) (objects : List Ptr)
    (heap : Heap (Threshold R)) :
    AgreesWith (loadAndLogThresholds fixed2 assign { moveFirst := .ofRows rows } objects heap)
      (TrapHandler.loadThresholds fixed2 assign rows) := by
  have hrows := loadRows_agreesWith fixed2 assign rows (Owned.refl heap) (Holds.nil heap)
  have htry : tryLoad (createThresholdFromDbRow assign) (hasText fixed2)
      { moveFirst := .ofRows rows } [] heap = loadRows (createThresholdFromDbRow assign)
        (hasText fixed2) (.ofRows rows) [] heap := rfl
  rw [loadAndLogThresholds, load, htry]
  cases hload : TrapHandler.loadThresholds fixed2 assign rows with
  | returned thresholds =>
    rw [hload] at hrows
    rw [if_neg (Bool.eq_false_iff.mp hrows.1)]
    exact hrows
  | thrown =>
    rw [hload] at hrows
    rw [if_pos (show _ = true from hrows)]
    rfl
  | ended =>
    rw [hload] at hrows
    rw [if_neg (Bool.eq_false_iff.mp hrows.1)]
    exact hrows

end

end PocoOdbcStore

end TrapHandler
