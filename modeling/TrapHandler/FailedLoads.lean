import TrapHandler.StoreLoaders

/-!
# Loads that fail

`TrapHandlerModel` gives the store a vector of its own. It takes over what the store has loaded; an
exception of the store it catches, and deletes the objects that the vector still holds then.
-/

namespace TrapHandler

open Ownership

structure OwningModel (R : Type) where
  mHosts : Int32 → Option Ptr := fun _ => none
  mHostsByName : WStr → Option Ptr := fun _ => none
  mThresholds : List Ptr := []
  hosts : Heap Host := {}
  thresholds : Heap (Threshold R) := {}

namespace OwningModel

variable {R : Type}

/-- The old thresholds are not deleted: their vector is overwritten. -/
def loadThresholds (assign : WStr → Option R) (this : OwningModel R) (statement : Statement) :
    OwningModel R :=
  let r := PocoOdbcStore.loadThresholds assign statement [] this.thresholds
  if r.thrown then { this with thresholds := r.heap.deleteAll r.objects }
  else { this with mThresholds := r.objects, thresholds := r.heap }

def loadHostsLoop : List Ptr → OwningModel R → OwningModel R
  | [], this => this
  | it :: rest, this =>
    match this.hosts.get it with
    | none => loadHostsLoop rest this
    | some host =>
      if (this.mHostsByName host.hostname).isNone then
        loadHostsLoop rest this
      else
        let this := match this.mHosts host.id with
          | some existing =>
            { this with
              hosts := this.hosts.delete existing
              mHosts := Function.update this.mHosts host.id (some it) }
          | none => { this with mHosts := mapInsert this.mHosts host.id it }
        loadHostsLoop rest
          { this with mHostsByName := mapInsert this.mHostsByName host.hostname it }

def loadHosts (this : OwningModel R) (statement : Statement) : OwningModel R :=
  let r := PocoOdbcStore.loadHosts statement [] this.hosts
  if r.thrown then { this with hosts := r.heap.deleteAll r.objects }
  else loadHostsLoop r.objects { this with hosts := r.heap, mHostsByName := fun _ => none }

/-- The tables and the objects, as the cache is described elsewhere. -/
def cache (this : OwningModel R) : TrapHandlerModel R where
  mHosts := this.mHosts
  mHostsByName := this.mHostsByName
  hosts := this.hosts.cells

theorem cache_loadHostsLoop (ptrs : List Ptr) (this : OwningModel R) :
    (loadHostsLoop ptrs this).cache = TrapHandlerModel.loadHostsLoop ptrs this.cache := by
  induction ptrs generalizing this with
  | nil => rfl
  | cons it rest ih =>
    rw [loadHostsLoop, TrapHandlerModel.loadHostsLoop]
    have hget : this.cache.hosts.get it = this.hosts.get it := rfl
    rw [hget]
    cases this.hosts.get it with
    | none => exact ih this
    | some host =>
      have hname : this.cache.mHostsByName = this.mHostsByName := rfl
      have hid : this.cache.mHosts = this.mHosts := rfl
      dsimp only
      rw [hname, hid]
      split_ifs
      · exact ih this
      · rw [ih]
        cases this.mHosts host.id with
        | none => rfl
        | some existing => rfl

theorem cache_loadHosts {rows : List RecordRow} {loaded : List Host}
    (h : TrapHandler.loadHosts rows = some loaded) (this : OwningModel R) :
    (this.loadHosts { moveFirst := .ofRows rows }).cache = this.cache.loadHosts (some loaded) := by
  have hload : PocoOdbcStore.loadHosts { moveFirst := .ofRows rows } [] this.hosts =
      { thrown := false
        objects := List.range' this.hosts.size loaded.length
        heap := { this.hosts with cells := this.hosts.cells ++ loaded.map some } } := by
    have hmap := PocoOdbcStore.map_createHostFromDbRow h
    have htry : PocoOdbcStore.tryLoad PocoOdbcStore.createHostFromDbRow PocoOdbcStore.anyText
        { moveFirst := .ofRows rows } [] this.hosts = _ := PocoOdbcStore.loadRows_of_map_eq hmap
    rw [PocoOdbcStore.loadHosts, PocoOdbcStore.load, htry]
    rfl
  rw [loadHosts, hload]
  exact cache_loadHostsLoop _ _

/-- The objects of the heap are those of before, and others of which each has been deleted once. -/
structure Released {α : Type} (before after : Heap α) : Prop where
  older : ∀ p < before.size, after.get p = before.get p
  once : ∀ p, after.deleted.count p =
    before.deleted.count p + if before.size ≤ p ∧ p < after.size then 1 else 0

structure KeptAndReleased (this after : OwningModel R) : Prop where
  mHosts : after.mHosts = this.mHosts
  mHostsByName : after.mHostsByName = this.mHostsByName
  mThresholds : after.mThresholds = this.mThresholds
  hosts : Released this.hosts after.hosts
  thresholds : Released this.thresholds after.thresholds

theorem released_of_owned {α : Type} {before after : Heap α} (h : Owned before after []) :
    Released before after :=
  ⟨h.older, h.count_deleted⟩

theorem released_refl {α : Type} (heap : Heap α) : Released heap heap :=
  released_of_owned (Owned.refl heap)

/-- Whatever the cache holds and wherever the store throws, the load changes nothing and leaves
nothing behind. -/
theorem failedLoads_keptAndReleased (assign : WStr → Option R) (this : OwningModel R)
    (statement : Statement) :
    ((PocoOdbcStore.loadHosts statement [] this.hosts).thrown = true →
        KeptAndReleased this (this.loadHosts statement)) ∧
      ((PocoOdbcStore.loadThresholds assign statement [] this.thresholds).thrown = true →
        KeptAndReleased this (this.loadThresholds assign statement)) := by
  constructor
  · intro h
    obtain ⟨hempty, howned⟩ : (PocoOdbcStore.loadHosts statement [] this.hosts).objects = [] ∧
        Owned this.hosts (PocoOdbcStore.loadHosts statement [] this.hosts).heap [] :=
      PocoOdbcStore.load_of_thrown h
    rw [loadHosts, if_pos h, hempty]
    exact ⟨rfl, rfl, rfl, released_of_owned howned, released_refl _⟩
  · intro h
    obtain ⟨hempty, howned⟩ :
        (PocoOdbcStore.loadThresholds assign statement [] this.thresholds).objects = [] ∧
          Owned this.thresholds
            (PocoOdbcStore.loadThresholds assign statement [] this.thresholds).heap [] :=
      PocoOdbcStore.load_of_thrown h
    rw [loadThresholds, if_pos h, hempty]
    exact ⟨rfl, rfl, rfl, released_refl _, released_of_owned howned⟩

def oneHost : OwningModel WStr where
  mHosts := Function.update (fun _ => none) 1 (some 0)
  mHostsByName := Function.update (fun _ => none) (wcs "testsystem") (some 0)
  hosts := { cells := [some { namedHost with id := 1 }] }

def namelessHost : Statement where
  moveFirst := .ofRows
    [[.int 1, .text (wcs "a"), .text [], .null, .null, .null, .null, .null, .null, .null,
        .text [], .int 0, .bigint 0],
      [.int 2, .null]]

def lostThresholds : Statement where
  moveFirst := .row
    [.int 1, .text [], .text [], .int 0, .int 0, .float 0, .float 0, .text [], .text [], .int 0,
      .int 0] .throws

theorem oneHost_keptAndReleased :
    KeptAndReleased oneHost (oneHost.loadHosts namelessHost) ∧
      KeptAndReleased oneHost (oneHost.loadThresholds some lostThresholds) :=
  ⟨(failedLoads_keptAndReleased some oneHost namelessHost).1 rfl,
    (failedLoads_keptAndReleased some oneHost lostThresholds).2 rfl⟩

end OwningModel

end TrapHandler
