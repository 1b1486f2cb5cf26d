import TrapHandler.HostStore
import TrapHandler.Runs
import TrapHandler.ThresholdRules

/-!
# The cache of the model

`TrapHandlerModel` keeps pointers to the objects that the store has created: hosts by id and by name,
file systems by id. An address is the number of the object in the order of creation, and a deleted
object leaves its address empty. Loading the cache goes through thresholds, hosts and file systems.
-/

namespace TrapHandler

open Runs

abbrev Ptr := ℕ

/-- The objects created so far, `none` where the object has been deleted. -/
abbrev Objects (α : Type) := List (Option α)

namespace Objects

variable {α : Type}

def get (objects : Objects α) (p : Ptr) : Option α := objects[p]?.join

def delete (objects : Objects α) (p : Ptr) : Objects α := objects.set p none

def assign (objects : Objects α) (p : Ptr) (a : α) : Objects α := objects.set p (some a)

def create (objects : Objects α) (as : List α) : Objects α := objects ++ as.map some

/-- The addresses of the objects that `create` adds. -/
def created (objects : Objects α) (as : List α) : List Ptr := List.range' objects.length as.length

end Objects

structure FileSystem where
  name : WStr
  id : Int32
  size : Int64 := 0
  freeMb : Int64 := 0
  status : Status := {}
  hostId : Int32 := -1
  thresholdId : Int32 := -1
  statusChangeTime : Int64 := 0
  pHost : Option Ptr := none
  deriving DecidableEq, Repr

structure TrapHandlerModel (R : Type) where
  mHosts : Int32 → Option Ptr := fun _ => none
  mHostsByName : WStr → Option Ptr := fun _ => none
  mFilesystems : Int32 → Option Ptr := fun _ => none
  mThresholds : List (Threshold R) := []
  hosts : Objects Host := []
  filesystems : Objects FileSystem := []

/-- `std::map::insert`: a key that is there keeps its value. -/
def mapInsert {κ ν : Type} [DecidableEq κ] (map : κ → Option ν) (key : κ) (value : ν) :
    κ → Option ν :=
  if (map key).isSome then map else Function.update map key (some value)

namespace TrapHandlerModel

variable {R : Type}

def getHostById (this : TrapHandlerModel R) (hostId : Int32) : Option Ptr := this.mHosts hostId

def getHostByName (this : TrapHandlerModel R) (hostName : WStr) : Option Ptr :=
  this.mHostsByName hostName

def loadThresholds (this : TrapHandlerModel R) (loaded : Option (List (Threshold R))) :
    TrapHandlerModel R :=
  { this with mThresholds := modelThresholds this.mThresholds loaded }

/-- The loop over the loaded hosts. The test for a host of the same name is the one of the source: it
is true where the name is not found. -/
def loadHostsLoop : List Ptr → TrapHandlerModel R → TrapHandlerModel R
  | [], this => this
  | it :: rest, this =>
    match this.hosts.get it with
    | none => loadHostsLoop rest this
    | some host =>
      if (this.mHostsByName host.hostname).isNone then
        loadHostsLoop rest this
      else
        let this := match this.mHosts host.id with
          | some existing =>
            { this with
              hosts := this.hosts.delete existing
              mHosts := Function.update this.mHosts host.id (some it) }
          | none => { this with mHosts := mapInsert this.mHosts host.id it }
        loadHostsLoop rest
          { this with mHostsByName := mapInsert this.mHostsByName host.hostname it }

/-- `none` is an exception in the store. -/
def loadHosts (this : TrapHandlerModel R) (loaded : Option (List Host)) : TrapHandlerModel R :=
  match loaded with
  | some loadedHosts =>
    loadHostsLoop (this.hosts.created loadedHosts)
      { this with
        hosts := this.hosts.create loadedHosts
        mHostsByName := fun _ => none }
  | none => this

/-- The loop over the loaded file systems. -/
def loadFileSystemsLoop : List Ptr → TrapHandlerModel R → TrapHandlerModel R
  | [], this => this
  | it :: rest, this =>
    match this.filesystems.get it with
    | none => loadFileSystemsLoop rest this
    | some fs =>
      if fs.hostId ≥ 0 then
        match this.mHosts fs.hostId with
        | none => loadFileSystemsLoop rest this
        | some foundHost =>
          let hostId := ((this.hosts.get foundHost).map Host.id).getD fs.hostId
          loadFileSystemsLoop rest
            { this with
              filesystems := this.filesystems.assign it
                { fs with pHost := some foundHost, hostId } }
      else loadFileSystemsLoop rest this

def loadFileSystems (this : TrapHandlerModel R) (loaded : Option (List FileSystem)) :
    TrapHandlerModel R :=
  match loaded with
  | some loadedFs =>
    loadFileSystemsLoop (this.filesystems.created loadedFs)
      { this with filesystems := this.filesystems.create loadedFs }
  | none => this

/-- What the store returns to one `LoadCache`. -/
structure Loaded (R : Type) where
  thresholds : List (Threshold R)
  hosts : List Host
  fileSystems : List FileSystem

def loadCache (this : TrapHandlerModel R) (loaded : Loaded R) : TrapHandlerModel R :=
  ((this.loadThresholds (some loaded.thresholds)).loadHosts (some loaded.hosts)).loadFileSystems
    (some loaded.fileSystems)

/-- Both maps lead to the loaded hosts, the first of each name, and to no other and no deleted
object. -/
structure HostsIndexed (loaded : List Host) (this this' : TrapHandlerModel R) : Prop where
  first : ∀ i host, loaded[i]? = some host →
    (∀ j < i, ∀ other, loaded[j]? = some other → other.hostname ≠ host.hostname) →
    this'.getHostByName host.hostname = some (this.hosts.length + i) ∧
      this'.getHostById host.id = some (this.hosts.length + i)
  same_objects : ∀ p, (∃ id, this'.mHosts id = some p) ↔ ∃ name, this'.mHostsByName name = some p
  live : ∀ p, (∃ id, this'.mHosts id = some p) → ∃ host, this'.hosts.get p = some host

theorem loadHostsLoop_of_empty (ptrs : List Ptr) {this : TrapHandlerModel R}
    (h : ∀ name, this.mHostsByName name = none) : loadHostsLoop ptrs this = this := by
  induction ptrs with
  | nil => rfl
  | cons it rest ih =>
    rw [loadHostsLoop]
    cases this.hosts.get it with
    | none => exact ih
    | some host =>
      simp only [h, Option.isNone_none, if_true]
      exact ih

theorem loadHosts_eq (this : TrapHandlerModel R) (loaded : List Host) :
    this.loadHosts (some loaded) =
      { this with hosts := this.hosts.create loaded, mHostsByName := fun _ => none } :=
  loadHostsLoop_of_empty _ fun _ => rfl

/-- The hosts are indexed as loaded exactly if there are none, in the database and in the cache. -/
theorem hostsIndexed_iff (this : TrapHandlerModel R) (loaded : List Host) :
    HostsIndexed loaded this (this.loadHosts (some loaded)) ↔
      loaded = [] ∧ ∀ id, this.mHosts id = none := by
  rw [loadHosts_eq]
  constructor
  · rintro ⟨hfirst, hsame, _⟩
    constructor
    · cases loaded with
      | nil => rfl
      | cons host rest =>
        have hname := (hfirst 0 host rfl (fun j hj => absurd hj (Nat.not_lt_zero j))).1
        cases hname
    · intro id
      cases hid : this.mHosts id with
      | none => rfl
      | some p =>
        obtain ⟨name, hname⟩ := (hsame p).mp ⟨id, hid⟩
        cases hname
  · rintro ⟨rfl, hempty⟩
    refine ⟨?_, ?_, ?_⟩
    · intro i host hi
      cases hi
    · intro p
      constructor
      · rintro ⟨id, hid⟩
        rw [hempty id] at hid
        cases hid
      · rintro ⟨name, hname⟩
        cases hname
    · rintro p ⟨id, hid⟩
      rw [hempty id] at hid
      cases hid

/-- The first load of one host leaves both maps empty. -/
theorem namedHost_not_indexed :
    ¬ HostsIndexed [namedHost] ({} : TrapHandlerModel WStr)
      (loadHosts {} (some [namedHost])) := by
  intro h
  have hname := (h.first 0 namedHost rfl (fun j hj => absurd hj (Nat.not_lt_zero j))).1
  have hnone : (loadHosts ({} : TrapHandlerModel WStr) (some [namedHost])).getHostByName
      namedHost.hostname = none := rfl
  rw [hnone] at hname
  cases hname

/-- The file system belongs to no host or to a host that has been loaded with it. -/
def Loaded.Belongs (loaded : Loaded R) (fs : FileSystem) : Prop :=
  fs.hostId < 0 ∨ ∃ host ∈ loaded.hosts, host.id = fs.hostId

/-- After a `LoadCache` the map holds the loaded file systems that belong, each under its id, and
each that has a host points to the live object of that host. -/
structure FileSystemsCached (loaded : Loaded R) (this this' : TrapHandlerModel R) : Prop where
  held : ∀ id p, this'.mFilesystems id = some p ↔
    ∃ i fs, loaded.fileSystems[i]? = some fs ∧ loaded.Belongs fs ∧ fs.id = id ∧
      p = this.filesystems.length + i
  linked : ∀ id p fs, this'.mFilesystems id = some p → this'.filesystems.get p = some fs →
    0 ≤ fs.hostId → ∃ q host, fs.pHost = some q ∧ this'.mHosts fs.hostId = some q ∧
      this'.hosts.get q = some host

theorem mFilesystems_loadHostsLoop (ptrs : List Ptr) (this : TrapHandlerModel R) :
    (loadHostsLoop ptrs this).mFilesystems = this.mFilesystems := by
  induction ptrs generalizing this with
  | nil => rfl
  | cons it rest ih =>
    rw [loadHostsLoop]
    cases this.hosts.get it with
    | none => exact ih this
    | some host =>
      dsimp only
      split_ifs
      · exact ih this
      · rw [ih]
        cases this.mHosts host.id with
        | none => rfl
        | some existing => rfl

theorem mFilesystems_loadFileSystemsLoop (ptrs : List Ptr) (this : TrapHandlerModel R) :
    (loadFileSystemsLoop ptrs this).mFilesystems = this.mFilesystems := by
  induction ptrs generalizing this with
  | nil => rfl
  | cons it rest ih =>
    rw [loadFileSystemsLoop]
    cases this.filesystems.get it with
    | none => exact ih this
    | some fs =>
      dsimp only
      split_ifs
      · cases this.mHosts fs.hostId with
        | none => exact ih this
        | some foundHost => exact ih _
      · exact ih this

theorem mFilesystems_loadCache (this : TrapHandlerModel R) (loaded : Loaded R) :
    (this.loadCache loaded).mFilesystems = this.mFilesystems :=
  (mFilesystems_loadFileSystemsLoop _ _).trans (mFilesystems_loadHostsLoop _ _)

theorem fileSystemsCached_iff {this : TrapHandlerModel R} (loaded : Loaded R)
    (h : ∀ id, this.mFilesystems id = none) :
    FileSystemsCached loaded this (this.loadCache loaded) ↔
      ∀ fs ∈ loaded.fileSystems, ¬ loaded.Belongs fs := by
  have hnone : ∀ id, (this.loadCache loaded).mFilesystems id = none := by
    intro id
    rw [mFilesystems_loadCache, h id]
  constructor
  · rintro ⟨hheld, _⟩ fs hfs hbelongs
    obtain ⟨i, hi⟩ := List.mem_iff_getElem?.mp hfs
    have hsome := (hheld fs.id _).mpr ⟨i, fs, hi, hbelongs, rfl, rfl⟩
    rw [hnone] at hsome
    cases hsome
  · intro hall
    constructor
    · intro id p
      constructor
      · intro hp
        rw [hnone] at hp
        cases hp
      · rintro ⟨i, fs, hi, hbelongs, _⟩
        exact absurd hbelongs (hall fs (List.mem_of_getElem? hi))
    · intro id p fs hp
      rw [hnone] at hp
      cases hp

/-- In a sequence of loads every one caches its file systems exactly if none of them has a file
system that belongs. -/
theorem loadCache_fileSystemsCached_iff (loads : List (Loaded R)) :
    AtEach (fun before loaded => FileSystemsCached loaded (run loadCache {} before)
        (run loadCache {} (before ++ [loaded]))) loads ↔
      ∀ loaded ∈ loads, ∀ fs ∈ loaded.fileSystems, ¬ loaded.Belongs fs := by
  have hempty : ∀ before : List (Loaded R), ∀ id,
      (run loadCache {} before).mFilesystems id = none := by
    intro before
    apply invariant (I := fun this : TrapHandlerModel R => ∀ id, this.mFilesystems id = none)
    · exact fun _ => rfl
    · intro this loaded h id
      rw [mFilesystems_loadCache, h id]
  simp only [run_concat, fileSystemsCached_iff _ (hempty _)]
  constructor
  · intro h loaded hloaded
    obtain ⟨before, after, rfl⟩ := List.append_of_mem hloaded
    exact h before loaded ⟨after, by simp⟩
  · intro h before loaded hpre
    exact h loaded (hpre.subset (by simp))

def looseFileSystem : FileSystem where
  name := wcs "/var"
  id := 1
  size := 8000

def looseLoad : Loaded WStr where
  thresholds := []
  hosts := []
  fileSystems := [looseFileSystem]

/-- It is loaded and cannot be found afterwards. -/
theorem looseLoad_not_cached :
    ¬ AtEach (fun before loaded => FileSystemsCached loaded (run loadCache {} before)
      (run loadCache {} (before ++ [loaded]))) [looseLoad] := by
  intro h
  have hcached := h [] looseLoad (List.prefix_refl _)
  have hheld := (hcached.held 1 0).mpr ⟨0, looseFileSystem, rfl, .inl (by decide), rfl, rfl⟩
  cases hheld

end TrapHandlerModel

end TrapHandler
