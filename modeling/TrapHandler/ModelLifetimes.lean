import TrapHandler.FailedLoads

/-!
# Lifetimes of the model's objects

Over a whole run the model loads its cache again and again, deletes all objects, and is destroyed at
the end. The nodes of `m_hosts` are a list in the order of their keys, which is the order in which
`ReleaseAll` goes through them. A ledger keeps the values that the loads have brought, without any
object; the objects that are left behind at the end are those the ledger counts as lost.
-/

namespace TrapHandler

open Ownership

/-- `std::map::find`. -/
def findNode (nodes : List (Int32 × Ptr)) (key : Int32) : Option Ptr :=
  (nodes.find? fun node => node.1 == key).map Prod.snd

/-- `std::map::insert`: a key that is there keeps its value. -/
def insertNode (key : Int32) (value : Ptr) : List (Int32 × Ptr) → List (Int32 × Ptr)
  | [] => [(key, value)]
  | node :: nodes =>
    if key < node.1 then (key, value) :: node :: nodes
    else if key = node.1 then node :: nodes
    else node :: insertNode key value nodes

/-- The value of the node that has been found is overwritten. -/
def assignNode (key : Int32) (value : Ptr) : List (Int32 × Ptr) → List (Int32 × Ptr)
  | [] => []
  | node :: nodes =>
    if node.1 = key then (node.1, value) :: nodes else node :: assignNode key value nodes

def InKeyOrder (nodes : List (Int32 × Ptr)) : Prop := nodes.Pairwise fun a b => a.1 < b.1

theorem mapInsert_of_none {κ ν : Type} [DecidableEq κ] {map : κ → Option ν} {key : κ} (value : ν)
    (h : map key = none) : mapInsert map key value = Function.update map key (some value) := by
  unfold mapInsert
  rw [h]
  exact if_neg Bool.false_ne_true

theorem mapInsert_of_some {κ ν : Type} [DecidableEq κ] {map : κ → Option ν} {key : κ} (value : ν)
    (h : (map key).isSome = true) : mapInsert map key value = map := by
  unfold mapInsert
  exact if_pos h

section

variable {nodes : List (Int32 × Ptr)}

theorem findNode_cons (node : Int32 × Ptr) (nodes : List (Int32 × Ptr)) :
    findNode (node :: nodes) = Function.update (findNode nodes) node.1 (some node.2) := by
  funext k
  unfold findNode
  rw [List.find?_cons, Function.update_apply]
  by_cases h : node.1 = k
  · rw [if_pos h.symm, beq_iff_eq.mpr h]
    rfl
  · rw [if_neg (Ne.symm h), beq_false_of_ne h]

theorem findNode_of_lt {key : Int32} (h : ∀ node ∈ nodes, key < node.1) :
    findNode nodes key = none := by
  unfold findNode
  have hnone : nodes.find? (fun node => node.1 == key) = none := by
    rw [List.find?_eq_none]
    intro node hnode heq
    have hlt := h node hnode
    rw [beq_iff_eq.mp heq] at hlt
    exact Int32.lt_irrefl hlt
  rw [hnone]
  rfl

theorem findNode_insertNode (key : Int32) (value : Ptr) (h : InKeyOrder nodes) :
    findNode (insertNode key value nodes) = mapInsert (findNode nodes) key value := by
  induction nodes with
  | nil =>
    rw [mapInsert_of_none value rfl]
    exact findNode_cons (key, value) []
  | cons node nodes ih =>
    obtain ⟨hlt, hrest⟩ := List.pairwise_cons.mp h
    unfold insertNode
    by_cases hless : key < node.1
    · have hnone : findNode (node :: nodes) key = none := by
        apply findNode_of_lt
        intro other hother
        rcases List.mem_cons.mp hother with rfl | hother
        · exact hless
        · exact Int32.lt_trans hless (hlt other hother)
      rw [if_pos hless, mapInsert_of_none value hnone]
      exact findNode_cons (key, value) (node :: nodes)
    rw [if_neg hless]
    by_cases hsame : key = node.1
    · have hsome : (findNode (node :: nodes) key).isSome = true := by
        rw [findNode_cons, hsame, Function.update_self]
        rfl
      rw [if_pos hsame, mapInsert_of_some value hsome]
    · rw [if_neg hsame, findNode_cons, ih hrest, findNode_cons]
      have hkey : Function.update (findNode nodes) node.1 (some node.2) key =
          findNode nodes key := Function.update_of_ne hsame _ _
      by_cases hsome : (findNode nodes key).isSome = true
      · rw [mapInsert_of_some value hsome, mapInsert_of_some value (hkey ▸ hsome)]
      · have hnone : findNode nodes key = none := by simpa using hsome
        rw [mapInsert_of_none value hnone, mapInsert_of_none value (hkey.trans hnone),
          Function.update_comm (Ne.symm hsame)]

theorem findNode_assignNode {key : Int32} {existing : Ptr} (value : Ptr)
    (h : findNode nodes key = some existing) :
    findNode (assignNode key value nodes) = Function.update (findNode nodes) key (some value) := by
  induction nodes with
  | nil => cases h
  | cons node nodes ih =>
    unfold assignNode
    by_cases hnode : node.1 = key
    · rw [if_pos hnode, findNode_cons, findNode_cons, hnode, Function.update_idem]
    · rw [findNode_cons, Function.update_of_ne (Ne.symm hnode)] at h
      rw [if_neg hnode, findNode_cons, ih h, findNode_cons, Function.update_comm (Ne.symm hnode)]

theorem lt_of_mem_insertNode {key k : Int32} {value : Ptr} (hkey : k < key)
    (h : ∀ node ∈ nodes, k < node.1) : ∀ node ∈ insertNode key value nodes, k < node.1 := by
  induction nodes with
  | nil =>
    intro node hnode
    rw [List.mem_singleton.mp hnode]
    exact hkey
  | cons first nodes ih =>
    unfold insertNode
    by_cases hless : key < first.1
    · rw [if_pos hless]
      exact List.forall_mem_cons.mpr ⟨hkey, h⟩
    · rw [if_neg hless]
      by_cases hsame : key = first.1
      · rw [if_pos hsame]
        exact h
      · rw [if_neg hsame]
        obtain ⟨hfirst, hrest⟩ := List.forall_mem_cons.mp h
        exact List.forall_mem_cons.mpr ⟨hfirst, ih hrest⟩

theorem inKeyOrder_insertNode (key : Int32) (value : Ptr) (h : InKeyOrder nodes) :
    InKeyOrder (insertNode key value nodes) := by
  induction nodes with
  | nil => exact List.pairwise_singleton _ _
  | cons node nodes ih =>
    obtain ⟨hlt, hrest⟩ := List.pairwise_cons.mp h
    unfold insertNode
    by_cases hless : key < node.1
    · rw [if_pos hless]
      have hless' : ∀ a ∈ nodes, key < a.1 := fun a ha => Int32.lt_trans hless (hlt a ha)
      exact List.pairwise_cons.mpr ⟨List.forall_mem_cons.mpr ⟨hless, hless'⟩, h⟩
    rw [if_neg hless]
    by_cases hsame : key = node.1
    · rw [if_pos hsame]
      exact h
    · have hkey : node.1 < key := Int32.lt_of_le_of_ne (Int32.not_lt.mp hless) (Ne.symm hsame)
      rw [if_neg hsame]
      exact List.pairwise_cons.mpr ⟨lt_of_mem_insertNode hkey hlt, ih hrest⟩

theorem inKeyOrder_assignNode (key : Int32) (value : Ptr) (h : InKeyOrder nodes) :
    InKeyOrder (assignNode key value nodes) := by
  have hkeys : ∀ l : List (Int32 × Ptr), (assignNode key value l).map Prod.fst = l.map Prod.fst := by
    intro l
    induction l with
    | nil => rfl
    | cons node l ih =>
      unfold assignNode
      by_cases hnode : node.1 = key
      · rw [if_pos hnode, List.map_cons, List.map_cons]
      · rw [if_neg hnode, List.map_cons, List.map_cons, ih]
  unfold InKeyOrder at h ⊢
  rw [← List.pairwise_map (R := (· < ·)), hkeys, List.pairwise_map]
  exact h

end

/-- The members of the model, and the heaps of its three kinds of objects. -/
structure ModelObjects (R : Type) where
  mHosts : List (Int32 × Ptr) := []
  mHostsByName : WStr → Option Ptr := fun _ => none
  mFilesystems : List (Int32 × Ptr) := []
  mThresholds : List Ptr := []
  hosts : Heap Host := {}
  filesystems : Heap FileSystem := {}
  thresholds : Heap (Threshold R) := {}

/-- The statements of one `LoadCache`. -/
structure CacheLoad where
  thresholds : Statement
  hosts : Statement
  fileSystems : Statement

namespace ModelObjects

variable {R : Type}

/-- The statement in front of the assignment names `clear` without a call. -/
def loadThresholds (assign : WStr → Option R) (this : ModelObjects R) (statement : Statement) :
    ModelObjects R :=
  let r := PocoOdbcStore.loadThresholds assign statement [] this.thresholds
  if r.thrown then { this with thresholds := r.heap.deleteAll r.objects }
  else { this with mThresholds := r.objects, thresholds := r.heap }

def loadHostsLoop : List Ptr → ModelObjects R → ModelObjects R
  | [], this => this
  | it :: rest, this =>
    match this.hosts.get it with
    | none => loadHostsLoop rest this
    | some host =>
      if (this.mHostsByName host.hostname).isNone then
        loadHostsLoop rest this
      else
        let this := match findNode this.mHosts host.id with
          | some existing =>
            { this with
              hosts := this.hosts.delete existing
              mHosts := assignNode host.id it this.mHosts }
          | none => { this with mHosts := insertNode host.id it this.mHosts }
        loadHostsLoop rest
          { this with mHostsByName := mapInsert this.mHostsByName host.hostname it }

def loadHosts (this : ModelObjects R) (statement : Statement) : ModelObjects R :=
  let r := PocoOdbcStore.loadHosts statement [] this.hosts
  if r.thrown then { this with hosts := r.heap.deleteAll r.objects }
  else loadHostsLoop r.objects { this with hosts := r.heap, mHostsByName := fun _ => none }

/-- Nothing is inserted into the maps of the file systems. -/
def loadFileSystemsLoop : List Ptr → ModelObjects R → ModelObjects R
  | [], this => this
  | it :: rest, this =>
    match this.filesystems.get it with
    | none => loadFileSystemsLoop rest this
    | some fs =>
      if fs.hostId ≥ 0 then
        match findNode this.mHosts fs.hostId with
        | none => loadFileSystemsLoop rest this
        | some foundHost =>
          let hostId := ((this.hosts.get foundHost).map Host.id).getD fs.hostId
          loadFileSystemsLoop rest
            { this with
              filesystems := this.filesystems.write it
                { fs with pHost := some foundHost, hostId } }
      else loadFileSystemsLoop rest this

def loadFileSystems (this : ModelObjects R) (statement : Statement) : ModelObjects R :=
  let r := PocoOdbcStore.loadFileSystems statement [] this.filesystems
  if r.thrown then { this with filesystems := r.heap.deleteAll r.objects }
  else loadFileSystemsLoop r.objects { this with filesystems := r.heap }

def loadCache (assign : WStr → Option R) (this : ModelObjects R) (load : CacheLoad) :
    ModelObjects R :=
  ((this.loadThresholds assign load.thresholds).loadHosts load.hosts).loadFileSystems
    load.fileSystems

/-- The map of the host names keeps its nodes. -/
def releaseAll (this : ModelObjects R) : ModelObjects R :=
  { this with
    mHosts := []
    mFilesystems := []
    mThresholds := []
    hosts := this.hosts.deleteAll (this.mHosts.map Prod.snd)
    filesystems := this.filesystems.deleteAll (this.mFilesystems.map Prod.snd)
    thresholds := this.thresholds.deleteAll this.mThresholds }

/-- An exception of the store is thrown again in front of the release. -/
def deleteAllObjects (this : ModelObjects R) (storeThrows : Bool) : ModelObjects R :=
  if storeThrows then this else this.releaseAll

/-- The destructor. -/
def destruct (this : ModelObjects R) : ModelObjects R := this.releaseAll

inductive Call where
  | loadCache (load : CacheLoad)
  | deleteAllObjects (storeThrows : Bool)

def call (assign : WStr → Option R) (this : ModelObjects R) : Call → ModelObjects R
  | .loadCache load => this.loadCache assign load
  | .deleteAllObjects storeThrows => this.deleteAllObjects storeThrows

def owning (this : ModelObjects R) : OwningModel R where
  mHosts := findNode this.mHosts
  mHostsByName := this.mHostsByName
  mThresholds := this.mThresholds
  hosts := this.hosts
  thresholds := this.thresholds

theorem owning_loadThresholds (assign : WStr → Option R) (this : ModelObjects R)
    (statement : Statement) :
    (this.loadThresholds assign statement).owning =
      this.owning.loadThresholds assign statement := by
  unfold loadThresholds OwningModel.loadThresholds
  have hheap : this.owning.thresholds = this.thresholds := rfl
  rw [hheap]
  dsimp only
  split_ifs
  · rfl
  · rfl

theorem owning_loadHostsLoop (ptrs : List Ptr) (this : ModelObjects R)
    (h : InKeyOrder this.mHosts) :
    (loadHostsLoop ptrs this).owning = OwningModel.loadHostsLoop ptrs this.owning ∧
      InKeyOrder (loadHostsLoop ptrs this).mHosts := by
  induction ptrs generalizing this with
  | nil => exact ⟨rfl, h⟩
  | cons it rest ih =>
    unfold loadHostsLoop OwningModel.loadHostsLoop
    have hget : this.owning.hosts.get it = this.hosts.get it := rfl
    rw [hget]
    cases this.hosts.get it with
    | none => exact ih this h
    | some host =>
      have hname : this.owning.mHostsByName = this.mHostsByName := rfl
      have hid : this.owning.mHosts = findNode this.mHosts := rfl
      dsimp only
      rw [hname, hid]
      by_cases hnew : (this.mHostsByName host.hostname).isNone = true
      · rw [if_pos hnew, if_pos hnew]
        exact ih this h
      rw [if_neg hnew, if_neg hnew]
      cases hfind : findNode this.mHosts host.id with
      | none =>
        obtain ⟨howning, horder⟩ := ih
          { this with
            mHosts := insertNode host.id it this.mHosts
            mHostsByName := mapInsert this.mHostsByName host.hostname it }
          (inKeyOrder_insertNode host.id it h)
        refine ⟨howning.trans ?_, horder⟩
        simp only [owning, findNode_insertNode host.id it h]
      | some existing =>
        obtain ⟨howning, horder⟩ := ih
          { this with
            hosts := this.hosts.delete existing
            mHosts := assignNode host.id it this.mHosts
            mHostsByName := mapInsert this.mHostsByName host.hostname it }
          (inKeyOrder_assignNode host.id it h)
        refine ⟨howning.trans ?_, horder⟩
        simp only [owning, findNode_assignNode it hfind]

theorem owning_loadHosts (this : ModelObjects R) (statement : Statement)
    (h : InKeyOrder this.mHosts) :
    (this.loadHosts statement).owning = this.owning.loadHosts statement ∧
      InKeyOrder (this.loadHosts statement).mHosts := by
  unfold loadHosts OwningModel.loadHosts
  have hheap : this.owning.hosts = this.hosts := rfl
  rw [hheap]
  dsimp only
  by_cases hthrown : (PocoOdbcStore.loadHosts statement [] this.hosts).thrown = true
  · rw [if_pos hthrown, if_pos hthrown]
    exact ⟨rfl, h⟩
  · rw [if_neg hthrown, if_neg hthrown]
    exact owning_loadHostsLoop _ _ h

end ModelObjects

/-- The values a loader returns, `none` where it throws. -/
def Statement.values {α : Type} (convert : RecordRow → Option α) (rethrows : Bool)
    (statement : Statement) : Option (List α) :=
  let r := PocoOdbcStore.load (PocoOdbcStore.createFromDbRow convert rethrows) PocoOdbcStore.anyText
    statement [] {}
  if r.thrown then none else some (statement.moveFirst.rows.filterMap convert)

/-- The thresholds in use, and what has been loaded and cannot be reached any more. -/
structure Ledger (R : Type) where
  thresholds : List (Threshold R) := []
  lostThresholds : List (Threshold R) := []
  lostHosts : List Host := []
  lostFileSystems : List FileSystem := []

namespace Ledger

variable {R : Type}

/-- The thresholds take the place of those of the load before. -/
def loadThresholds (assign : WStr → Option R) (ledger : Ledger R) (statement : Statement) :
    Ledger R :=
  match statement.values (createThresholdFromDbRow assign) false with
  | some loaded =>
    { ledger with
      thresholds := loaded
      lostThresholds := ledger.lostThresholds ++ ledger.thresholds }
  | none => ledger

def loadHosts (ledger : Ledger R) (statement : Statement) : Ledger R :=
  { ledger with
    lostHosts := ledger.lostHosts ++ (statement.values createHostFromDbRow true).getD [] }

def loadFileSystems (ledger : Ledger R) (statement : Statement) : Ledger R :=
  { ledger with
    lostFileSystems :=
      ledger.lostFileSystems ++ (statement.values fileSystemOfRow false).getD [] }

def loadCache (assign : WStr → Option R) (ledger : Ledger R) (load : CacheLoad) : Ledger R :=
  ((ledger.loadThresholds assign load.thresholds).loadHosts load.hosts).loadFileSystems
    load.fileSystems

def call (assign : WStr → Option R) (ledger : Ledger R) : ModelObjects.Call → Ledger R
  | .loadCache load => ledger.loadCache assign load
  | .deleteAllObjects storeThrows =>
    if storeThrows then ledger else { ledger with thresholds := [] }

end Ledger

section

variable {α : Type} {heap : Heap α} {ptrs : List Ptr} {values : List α}
  {convert : RecordRow → Option α} {rethrows : Bool} {statement : Statement}

/-- All objects ever created are these, with these values, or have been deleted once. -/
structure Accounted (heap : Heap α) (ptrs : List Ptr) (values : List α) : Prop where
  owned : Owned {} heap ptrs
  holds : Holds heap ptrs values

theorem accounted_empty : Accounted ({} : Heap α) [] [] := ⟨Owned.refl {}, Holds.nil {}⟩

theorem values_eq_none_iff (heap : Heap α) : statement.values convert rethrows = none ↔
    (PocoOdbcStore.load (PocoOdbcStore.createFromDbRow convert rethrows) PocoOdbcStore.anyText
      statement [] heap).thrown =
      true := by
  unfold Statement.values
  dsimp only
  have hempty := @PocoOdbcStore.load_thrown_iff α convert rethrows {} [] statement
  have hheap := @PocoOdbcStore.load_thrown_iff α convert rethrows heap [] statement
  rw [hheap, ← hempty]
  by_cases hthrown : (PocoOdbcStore.load (PocoOdbcStore.createFromDbRow convert rethrows)
      PocoOdbcStore.anyText statement
      [] {}).thrown = true
  · rw [if_pos hthrown]
    exact iff_of_true rfl hthrown
  · rw [if_neg hthrown]
    exact iff_of_false (Option.some_ne_none _) hthrown

theorem Accounted.load_of_none (h : Accounted heap ptrs values) {r : Loading α}
    (hr : PocoOdbcStore.load (PocoOdbcStore.createFromDbRow convert rethrows) PocoOdbcStore.anyText
      statement [] heap = r)
    (hnone : statement.values convert rethrows = none) :
    r.thrown = true ∧ (∀ p ∈ ptrs, (r.heap.deleteAll r.objects).get p = heap.get p) ∧
      Accounted (r.heap.deleteAll r.objects) ptrs values := by
  have hthrown := (values_eq_none_iff heap).mp hnone
  obtain ⟨hempty, howned⟩ := PocoOdbcStore.load_of_thrown hthrown
  rw [hr] at hthrown hempty howned
  have happend := h.owned.append howned
  rw [List.append_nil] at happend
  have hkept : ∀ p ∈ ptrs, (r.heap.deleteAll r.objects).get p = heap.get p := by
    intro p hp
    rw [hempty]
    exact howned.older p (h.owned.bounds hp).2
  refine ⟨hthrown, hkept, ?_, h.holds.congr hkept⟩
  rw [hempty]
  exact happend

theorem Accounted.load_of_some (h : Accounted heap ptrs values) {r : Loading α}
    (hr : PocoOdbcStore.load (PocoOdbcStore.createFromDbRow convert rethrows) PocoOdbcStore.anyText
      statement [] heap = r)
    {loaded : List α} (hsome : statement.values convert rethrows = some loaded) :
    r.thrown = false ∧ Holds r.heap r.objects loaded ∧ (∀ p ∈ ptrs, r.heap.get p = heap.get p) ∧
      Accounted r.heap (ptrs ++ r.objects) (values ++ loaded) := by
  have hne : ¬ r.thrown = true := by
    rw [← hr, ← values_eq_none_iff heap, hsome]
    exact Option.some_ne_none _
  have hthrown : r.thrown = false := Bool.eq_false_iff.mpr hne
  have hloaded : loaded = statement.moveFirst.rows.filterMap convert := by
    unfold Statement.values at hsome
    dsimp only at hsome
    split_ifs at hsome
    exact (Option.some.inj hsome).symm
  have howned : Owned heap r.heap r.objects := by
    have htry := @PocoOdbcStore.owned_tryLoad α convert rethrows heap heap [] statement
      (Owned.refl heap)
    rw [← hr, PocoOdbcStore.thrown_load] at hne
    rw [← hr, PocoOdbcStore.load, if_neg hne]
    exact htry
  have hobjects : Holds r.heap r.objects loaded := by
    rw [hloaded, ← hr]
    apply PocoOdbcStore.load_holds
    rw [hr]
    exact hthrown
  have hkept : ∀ p ∈ ptrs, r.heap.get p = heap.get p :=
    fun p hp => howned.older p (h.owned.bounds hp).2
  exact ⟨hthrown, hobjects, hkept, h.owned.append howned, (h.holds.congr hkept).append hobjects⟩

theorem Accounted.deleteAll {front : List Ptr} {gone : List α}
    (h : Accounted heap (ptrs ++ front) (values ++ gone)) (hkept : Holds heap ptrs values) :
    Accounted (heap.deleteAll front) ptrs values := by
  have hperm := h.owned.perm List.perm_append_comm
  refine ⟨hperm.deleteFront, hkept.congr ?_⟩
  intro p hp
  apply Heap.get_deleteAll
  intro hfront
  exact (List.nodup_append.mp h.owned.nodup).2.2 p hp p hfront rfl

/-- No object has been deleted twice, and those that exist are the ones with these values. -/
structure LeftBehind (heap : Heap α) (values : List α) : Prop where
  once : heap.deleted.Nodup
  left : ∃ ptrs, Holds heap ptrs values ∧
    ((List.range heap.size).filter fun p => decide (p ∉ heap.deleted)).Perm ptrs

theorem Accounted.leftBehind (h : Accounted heap ptrs values) : LeftBehind heap values :=
  ⟨h.owned.deleted_nodup, ptrs, h.holds, h.owned.perm_filter_deleted⟩

end

namespace ModelObjects

variable {R : Type}

/-- The model against its ledger: no host and no file system is ever entered into a map. -/
structure Tracked (this : ModelObjects R) (ledger : Ledger R) : Prop where
  mHosts : this.mHosts = []
  mHostsByName : this.mHostsByName = fun _ => none
  mFilesystems : this.mFilesystems = []
  hosts : ∃ lost, Accounted this.hosts lost ledger.lostHosts
  filesystems : ∃ lost, Accounted this.filesystems lost ledger.lostFileSystems
  used : Holds this.thresholds this.mThresholds ledger.thresholds
  thresholds : ∃ lost, Holds this.thresholds lost ledger.lostThresholds ∧
    Accounted this.thresholds (lost ++ this.mThresholds)
      (ledger.lostThresholds ++ ledger.thresholds)

variable {this : ModelObjects R} {ledger : Ledger R}

theorem tracked_empty : Tracked ({} : ModelObjects R) {} where
  mHosts := rfl
  mHostsByName := rfl
  mFilesystems := rfl
  hosts := ⟨[], accounted_empty⟩
  filesystems := ⟨[], accounted_empty⟩
  used := Holds.nil {}
  thresholds := ⟨[], Holds.nil {}, accounted_empty⟩

theorem loadHostsLoop_of_empty (ptrs : List Ptr) (h : this.mHostsByName = fun _ => none) :
    loadHostsLoop ptrs this = this := by
  induction ptrs with
  | nil => rfl
  | cons it rest ih =>
    unfold loadHostsLoop
    cases this.hosts.get it with
    | none => exact ih
    | some host =>
      dsimp only
      rw [h]
      exact ih

theorem loadFileSystemsLoop_of_empty (ptrs : List Ptr) (h : this.mHosts = []) :
    loadFileSystemsLoop ptrs this = this := by
  induction ptrs with
  | nil => rfl
  | cons it rest ih =>
    unfold loadFileSystemsLoop
    cases this.filesystems.get it with
    | none => exact ih
    | some fs =>
      dsimp only
      rw [h]
      split_ifs
      · exact ih
      · exact ih

theorem Tracked.loadThresholds (assign : WStr → Option R) (h : Tracked this ledger)
    (statement : Statement) :
    Tracked (this.loadThresholds assign statement) (ledger.loadThresholds assign statement) := by
  obtain ⟨lost, hlost, haccount⟩ := h.thresholds
  unfold ModelObjects.loadThresholds Ledger.loadThresholds
  cases hvalues : statement.values (createThresholdFromDbRow assign) false with
  | none =>
    obtain ⟨hthrown, hkept, hafter⟩ := haccount.load_of_none rfl hvalues
    have hlost' := hlost.congr fun p hp => hkept p (List.mem_append_left _ hp)
    have hused := h.used.congr fun p hp => hkept p (List.mem_append_right _ hp)
    dsimp only
    rw [PocoOdbcStore.loadThresholds, PocoOdbcStore.createThresholdFromDbRow, if_pos hthrown]
    exact { h with used := hused, thresholds := ⟨lost, hlost', hafter⟩ }
  | some loaded =>
    obtain ⟨hthrown, hobjects, hkept, hafter⟩ := haccount.load_of_some rfl hvalues
    have hlost' := haccount.holds.congr hkept
    dsimp only
    rw [PocoOdbcStore.loadThresholds, PocoOdbcStore.createThresholdFromDbRow,
      if_neg (Bool.eq_false_iff.mp hthrown)]
    exact { h with used := hobjects, thresholds := ⟨_, hlost', hafter⟩ }

/-- Every host that is loaded is lost: the test for a host of the same name is the wrong way round,
and the map of the names has just been cleared. -/
theorem Tracked.loadHosts (h : Tracked this ledger) (statement : Statement) :
    Tracked (this.loadHosts statement) (ledger.loadHosts statement) := by
  obtain ⟨lost, haccount⟩ := h.hosts
  unfold ModelObjects.loadHosts Ledger.loadHosts
  cases hvalues : statement.values createHostFromDbRow true with
  | none =>
    obtain ⟨hthrown, _, hafter⟩ := haccount.load_of_none rfl hvalues
    dsimp only
    rw [PocoOdbcStore.loadHosts, PocoOdbcStore.createHostFromDbRow, if_pos hthrown,
      Option.getD_none, List.append_nil]
    exact { h with hosts := ⟨lost, hafter⟩ }
  | some loaded =>
    obtain ⟨hthrown, _, _, hafter⟩ := haccount.load_of_some rfl hvalues
    dsimp only
    rw [PocoOdbcStore.loadHosts, PocoOdbcStore.createHostFromDbRow,
      if_neg (Bool.eq_false_iff.mp hthrown), loadHostsLoop_of_empty _ rfl, Option.getD_some]
    exact { h with mHostsByName := rfl, hosts := ⟨_, hafter⟩ }

theorem Tracked.loadFileSystems (h : Tracked this ledger) (statement : Statement) :
    Tracked (this.loadFileSystems statement) (ledger.loadFileSystems statement) := by
  obtain ⟨lost, haccount⟩ := h.filesystems
  unfold ModelObjects.loadFileSystems Ledger.loadFileSystems
  cases hvalues : statement.values fileSystemOfRow false with
  | none =>
    obtain ⟨hthrown, _, hafter⟩ := haccount.load_of_none rfl hvalues
    dsimp only
    rw [PocoOdbcStore.loadFileSystems, PocoOdbcStore.createFileSystemFromDbRow, if_pos hthrown,
      Option.getD_none, List.append_nil]
    exact { h with filesystems := ⟨lost, hafter⟩ }
  | some loaded =>
    obtain ⟨hthrown, _, _, hafter⟩ := haccount.load_of_some rfl hvalues
    dsimp only
    rw [PocoOdbcStore.loadFileSystems, PocoOdbcStore.createFileSystemFromDbRow,
      if_neg (Bool.eq_false_iff.mp hthrown), loadFileSystemsLoop_of_empty, Option.getD_some]
    · exact { h with filesystems := ⟨_, hafter⟩ }
    · exact h.mHosts

theorem Tracked.releaseAll (h : Tracked this ledger) :
    Tracked this.releaseAll { ledger with thresholds := [] } := by
  obtain ⟨lost, hlost, haccount⟩ := h.thresholds
  have hafter := haccount.deleteAll hlost
  unfold ModelObjects.releaseAll
  rw [h.mHosts, h.mFilesystems]
  exact {
    mHosts := rfl
    mHostsByName := h.mHostsByName
    mFilesystems := rfl
    hosts := h.hosts
    filesystems := h.filesystems
    used := Holds.nil _
    thresholds := ⟨lost, hafter.holds, by simpa using hafter⟩ }

theorem Tracked.call (assign : WStr → Option R) (h : Tracked this ledger) (c : Call) :
    Tracked (this.call assign c) (ledger.call assign c) := by
  cases c with
  | loadCache load =>
    exact ((h.loadThresholds assign load.thresholds).loadHosts load.hosts).loadFileSystems
      load.fileSystems
  | deleteAllObjects storeThrows =>
    cases storeThrows with
    | true => exact h
    | false => exact h.releaseAll

/-- In any run the thresholds in use exist and are those of the last load; hosts and file systems
are never found. Once the model has been destroyed, no object has been deleted twice, and what was
loaded and has not been deleted is what the ledger calls lost: every host, every file system, and the
thresholds that a later load has replaced. -/
theorem run_lifetimes (assign : WStr → Option R) (calls : List Call) :
    let this := Runs.run (ModelObjects.call assign) {} calls
    let ledger := Runs.run (Ledger.call assign) {} calls
    (∀ hostId, this.owning.mHosts hostId = none) ∧ (∀ name, this.mHostsByName name = none) ∧
      Holds this.thresholds this.mThresholds ledger.thresholds ∧
      LeftBehind this.destruct.hosts ledger.lostHosts ∧
      LeftBehind this.destruct.filesystems ledger.lostFileSystems ∧
      LeftBehind this.destruct.thresholds ledger.lostThresholds := by
  intro this ledger
  have h : Tracked this ledger :=
    Runs.related _ tracked_empty (fun _ _ c ht => ht.call assign c) calls
  have hend := h.releaseAll
  obtain ⟨lostHosts, hhosts⟩ := hend.hosts
  obtain ⟨lostFileSystems, hfilesystems⟩ := hend.filesystems
  obtain ⟨lostThresholds, _, hthresholds⟩ := hend.thresholds
  rw [List.append_nil] at hthresholds
  refine ⟨?_, ?_, h.used, hhosts.leftBehind, hfilesystems.leftBehind, hthresholds.leftBehind⟩
  · intro hostId
    unfold owning
    rw [h.mHosts]
    rfl
  · intro name
    rw [h.mHostsByName]

end ModelObjects

end TrapHandler
