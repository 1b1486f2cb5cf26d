import TrapHandler.RecordSets

/-!
# Hosts in the database

`PocoOdbcStore` writes a host with one statement of eleven positional parameters and reads hosts with
another statement, column by column. The database is a table that stores in each named column the
parameter in its place and fills the other columns itself; it refuses a text that is longer than its
column.
-/

namespace TrapHandler

structure Status where
  status : Int32 := 0
  deriving DecidableEq, Repr

def Status.setStatus (newStatus : Int32) (_ : Status) : Status := { status := newStatus }

structure Host where
  id : Int32 := 0
  hostname : WStr := []
  ip : WStr := []
  ugmonVersion : WStr := []
  versionString : WStr := []
  osVersionMajor : Int32 := 0
  osVersionMinor : Int32 := 0
  osVersionBuild : WStr := []
  servicePack : Int32 := 0
  architecture : WStr := []
  proxyHostName : WStr := []
  platform : WStr := []
  status : Status := {}
  statusChangeTime : UInt64 := 0
  deriving DecidableEq, Repr

/-- `to_lower` is given a copy of the host name, so the name stays as it was read. The service pack
is overwritten on the way to the status. -/
def createHostFromDbRow (rs : RecordRow) : Option Host := do
  let newHost : Host := {}
  let newHost := { newHost with id := ← rs.extractInt 0 }
  let newHost := { newHost with hostname := ← rs.extractWstring 1 }
  let newHost := { newHost with ip := ← rs.extractWstring 2 }
  let newHost := { newHost with ugmonVersion := ← rs.wstringOr 3 (wcs "Unknown") }
  let newHost := { newHost with versionString := ← rs.wstringOr 4 (wcs "") }
  let newHost := { newHost with osVersionMajor := ← rs.intOr 5 (-1) }
  let newHost := { newHost with osVersionMinor := ← rs.intOr 6 (-1) }
  let newHost := { newHost with osVersionBuild := ← rs.wstringOr 7 (wcs "") }
  let newHost := { newHost with servicePack := ← rs.intOr 8 (-1) }
  let newHost := { newHost with architecture := ← rs.wstringOr 9 (wcs "n/a") }
  let newHost := { newHost with platform := ← rs.extractWstring 10 }
  let newHost := { newHost with servicePack := ← rs.extractInt 11 }
  let newHost := { newHost with status := newHost.status.setStatus newHost.servicePack }
  let newHost := { newHost with statusChangeTime := (← rs.extractInt64 12).toUInt64 }
  pure newHost

/-- An exception in a row is thrown again, so the first one ends the loading. -/
def loadHosts : List RecordRow → Option (List Host)
  | [] => some []
  | rs :: rest => do
    let newHost ← createHostFromDbRow rs
    let hosts ← loadHosts rest
    pure (newHost :: hosts)

/-- The columns of `Hosts` that the statements name, and the status change time. -/
structure HostRow where
  id : Int32
  localHostName : WStr
  lastSeenIP : WStr
  ugMonVersion : Option WStr
  versionString : Option WStr
  osVersionMajor : Option Int32
  osVersionMinor : Option Int32
  osVersionBuild : Option WStr
  servicePack : Option Int32
  architecture : Option WStr
  proxyHostName : WStr
  platform : WStr
  lastKnownStatus : Int32
  statusChangeTime : Int64
  deriving DecidableEq, Repr

def selectHostAttributes (row : HostRow) : RecordRow :=
  [.int row.id, .text row.localHostName, .text row.lastSeenIP, .ofText? row.ugMonVersion,
    .ofText? row.versionString, .ofInt? row.osVersionMajor, .ofInt? row.osVersionMinor,
    .ofText? row.osVersionBuild, .ofInt? row.servicePack, .ofText? row.architecture,
    .text row.platform, .int row.lastKnownStatus, .bigint row.statusChangeTime]

def HostRow.fits (row : HostRow) : Bool :=
  row.localHostName.length ≤ 255 && row.lastSeenIP.length ≤ 26 &&
    row.ugMonVersion.all (·.length ≤ 12) && row.osVersionBuild.all (·.length ≤ 50) &&
    row.architecture.all (·.length ≤ 32) && row.proxyHostName.length ≤ 255 &&
    row.platform.length ≤ 30

/-- The rows of `Hosts`, and what the database gives the next row: an id that is not in use, a value
for the status, and the time. -/
structure HostTable where
  rows : List HostRow
  newId : Int32
  defaultStatus : Int32
  now : Int64
  fresh : ∀ row ∈ rows, row.id ≠ newId

namespace HostTable

/-- The row that `createHostSql` inserts; the parameters are in the order of its column list. -/
def createHostSql (table : HostTable) (localHostName lastSeenIP ugMonVersion versionString : WStr)
    (osVersionMajor osVersionMinor : Int32) (osVersionBuild : WStr) (servicePack : Int32)
    (architecture proxyHostName platform : WStr) : HostRow where
  id := table.newId
  localHostName := localHostName
  lastSeenIP := lastSeenIP
  ugMonVersion := some ugMonVersion
  versionString := some versionString
  osVersionMajor := some osVersionMajor
  osVersionMinor := some osVersionMinor
  osVersionBuild := some osVersionBuild
  servicePack := some servicePack
  architecture := some architecture
  proxyHostName := proxyHostName
  platform := platform
  lastKnownStatus := table.defaultStatus
  statusChangeTime := table.now

/-- The parameters are in the order in which `CreateHost` binds them. -/
def newRow (table : HostTable) (tmpHost : Host) : HostRow :=
  table.createHostSql
    tmpHost.hostname
    tmpHost.ugmonVersion
    tmpHost.ip
    tmpHost.versionString
    tmpHost.osVersionMajor
    tmpHost.osVersionMinor
    tmpHost.osVersionBuild
    tmpHost.servicePack
    tmpHost.architecture
    tmpHost.proxyHostName
    tmpHost.platform

/-- The rows afterwards, and the new id. -/
def createHost (table : HostTable) (host : Host) : Option (List HostRow × Int32) :=
  let row := table.newRow host
  if row.fits then some (table.rows ++ [row], row.id) else none

end HostTable

def Host.Fits (host : Host) : Prop :=
  host.hostname.length ≤ 255 ∧ host.ip.length ≤ 26 ∧ host.ugmonVersion.length ≤ 12 ∧
    host.osVersionBuild.length ≤ 50 ∧ host.architecture.length ≤ 32 ∧
    host.proxyHostName.length ≤ 255 ∧ host.platform.length ≤ 30

instance (host : Host) : Decidable host.Fits := inferInstanceAs (Decidable (_ ∧ _))

def HostRow.host (row : HostRow) : Host where
  id := row.id
  hostname := row.localHostName
  ip := row.lastSeenIP
  ugmonVersion := row.ugMonVersion.getD (wcs "Unknown")
  versionString := row.versionString.getD (wcs "")
  osVersionMajor := row.osVersionMajor.getD (-1)
  osVersionMinor := row.osVersionMinor.getD (-1)
  osVersionBuild := row.osVersionBuild.getD (wcs "")
  servicePack := row.lastKnownStatus
  architecture := row.architecture.getD (wcs "n/a")
  platform := row.platform
  status := { status := row.lastKnownStatus }
  statusChangeTime := row.statusChangeTime.toUInt64

theorem createHostFromDbRow_select (row : HostRow) :
    createHostFromDbRow (selectHostAttributes row) = some row.host := by
  unfold createHostFromDbRow
  rw [wstringOr_ofText? (s := row.ugMonVersion) _ rfl,
    wstringOr_ofText? (s := row.versionString) _ rfl, intOr_ofInt? (n := row.osVersionMajor) _ rfl,
    intOr_ofInt? (n := row.osVersionMinor) _ rfl, wstringOr_ofText? (s := row.osVersionBuild) _ rfl,
    intOr_ofInt? (n := row.servicePack) _ rfl, wstringOr_ofText? (s := row.architecture) _ rfl]
  rfl

theorem loadHosts_select (rows : List HostRow) :
    loadHosts (rows.map selectHostAttributes) = some (rows.map HostRow.host) := by
  induction rows with
  | nil => rfl
  | cons row rows ih =>
    rw [List.map_cons, loadHosts, createHostFromDbRow_select, ih]
    rfl

/-- After `CreateHost` every following `LoadHosts`, in whatever order it gets the rows, returns the
host under the new id. -/
def HostTable.ReturnsHost (table : HostTable) (host : Host) : Prop :=
  ∃ rows newId, table.createHost host = some (rows, newId) ∧
    ∀ result : List HostRow, result.Perm rows →
      ∃ hosts, loadHosts (result.map selectHostAttributes) = some hosts ∧
        ∃ loaded ∈ hosts, loaded.id = newId ∧ loaded.hostname = host.hostname.map toLower ∧
          loaded.ip = host.ip ∧ loaded.ugmonVersion = host.ugmonVersion ∧
          loaded.versionString = host.versionString ∧
          loaded.osVersionMajor = host.osVersionMajor ∧
          loaded.osVersionMinor = host.osVersionMinor ∧
          loaded.osVersionBuild = host.osVersionBuild ∧
          loaded.servicePack = host.servicePack ∧ loaded.architecture = host.architecture ∧
          loaded.platform = host.platform

theorem HostTable.eq_newRow {table : HostTable} {host : Host} {row : HostRow}
    (hrow : row ∈ table.rows ++ [table.newRow host]) (hid : row.id = table.newId) :
    row = table.newRow host := by
  rw [List.mem_append, List.mem_singleton] at hrow
  exact hrow.resolve_left fun hold => table.fresh row hold hid

theorem Host.fits_newRow {table : HostTable} {host : Host} (h : host.Fits)
    (hip : host.ip = host.ugmonVersion) : (table.newRow host).fits = true := by
  obtain ⟨hname, hipLen, hugmon, hbuild, harch, hproxy, hplatform⟩ := h
  rw [← hip] at hugmon
  simp only [HostRow.fits, HostTable.newRow, HostTable.createHostSql, Option.all_some, ← hip,
    Bool.and_eq_true, decide_eq_true_eq]
  exact ⟨⟨⟨⟨⟨⟨hname, hipLen⟩, hugmon⟩, hbuild⟩, harch⟩, hproxy⟩, hplatform⟩

theorem HostTable.fields_of_returnsHost {table : HostTable} {host : Host}
    (h : table.ReturnsHost host) :
    host.hostname = host.hostname.map toLower ∧ host.ip = host.ugmonVersion ∧
      host.servicePack = table.defaultStatus := by
  obtain ⟨rows, newId, hcreate, hload⟩ := h
  rw [HostTable.createHost] at hcreate
  split_ifs at hcreate with hrow
  obtain ⟨rfl, rfl⟩ := Prod.mk.inj (Option.some.inj hcreate)
  obtain ⟨hosts, hhosts, loaded, hmem, hid, hname, hip, _, _, _, _, _, hpack, _⟩ :=
    hload _ (List.Perm.refl _)
  rw [loadHosts_select, Option.some.injEq] at hhosts
  subst hhosts
  obtain ⟨row, hrow, rfl⟩ := List.mem_map.mp hmem
  obtain rfl := HostTable.eq_newRow hrow hid
  exact ⟨hname, hip.symm, hpack.symm⟩

/-- What is created is loaded unchanged exactly if the two exchanged fields are equal, the name is in
lower case already, and the service pack is the status that the database gives a new row. -/
theorem createHost_returnsHost_iff (table : HostTable) (host : Host) (hfits : host.Fits) :
    table.ReturnsHost host ↔
      host.hostname = host.hostname.map toLower ∧ host.ip = host.ugmonVersion ∧
        host.servicePack = table.defaultStatus := by
  constructor
  · exact HostTable.fields_of_returnsHost
  · rintro ⟨hname, hip, hpack⟩
    refine ⟨table.rows ++ [table.newRow host], table.newId, ?_, ?_⟩
    · rw [HostTable.createHost, if_pos (Host.fits_newRow hfits hip)]
      rfl
    · intro result hperm
      refine ⟨_, loadHosts_select result, (table.newRow host).host, ?_, rfl, hname, hip.symm, hip,
        rfl, rfl, rfl, rfl, hpack.symm, rfl, rfl⟩
      apply List.mem_map_of_mem
      rw [hperm.mem_iff]
      exact List.mem_append_right _ (List.mem_singleton.mpr rfl)

def emptyHosts : HostTable where
  rows := []
  newId := 1
  defaultStatus := 0
  now := 0
  fresh := by simp

def namedHost : Host where
  hostname := wcs "testsystem"
  platform := wcs "WINDOWS"

theorem namedHost_returned : namedHost.Fits ∧ emptyHosts.ReturnsHost namedHost := by
  have hfits : namedHost.Fits := by decide
  exact ⟨hfits, (createHost_returnsHost_iff emptyHosts namedHost hfits).mpr (by decide)⟩

def helloHost : Host where
  hostname := wcs "testsystem"
  ip := wcs "10.0.0.1"
  ugmonVersion := wcs "1.13"
  versionString := wcs "MSWin:6.1,BUILD:7601,Service Pack 1-x64 Windows"
  osVersionMajor := 6
  osVersionMinor := 1
  osVersionBuild := wcs "7601"
  servicePack := 1
  architecture := wcs "x64"
  proxyHostName := wcs "proxy"
  platform := wcs "WINDOWS"

/-- It is loaded with address and version exchanged, and without its service pack. -/
theorem helloHost_not_returned : helloHost.Fits ∧ ¬ emptyHosts.ReturnsHost helloHost := by
  refine ⟨by decide, ?_⟩
  intro h
  exact absurd (HostTable.fields_of_returnsHost h).2.1 (by decide)

end TrapHandler
