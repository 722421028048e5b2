import MsysHal.Native.Buffers

/-!
# Removable storage of the native HAL

The storage role of `native/src/native_hal.c`: scans of the block class, the mount
and umount commands with the table of their errors, the lists that keep automatic
mounting from repeating itself, the requests, and the loop of the component.

The process keeps its memory as globals; what a scan finds, what becomes of a
command and what arrives next is answered by the environment, in any way. A scan
and a change of the configuration are logged with the memory they start from. A
text is the list of its bytes.
-/

namespace MsysHal.Native.Storage

open Interleave (Sig Proc ask)

/-! ## Names -/

/-- `MAX_STORAGE_VOLUMES`. -/
def maxStorageVolumes : Nat := 32

/-- Up to three digits that end a name. -/
def isDigitTail (text : List Char) : Bool := decide (text.length ≤ 3) && text.all isAsciiDigit

/-- `storage_valid_name`: `sd` and `mmcblk` devices with their partitions. -/
def validName (name : List Char) : Bool :=
  let rest := name.drop 6
  let letters := (name.drop 2).takeWhile isLower
  let digits := rest.takeWhile isAsciiDigit
  if ['s', 'd'].isPrefixOf name then
    !letters.isEmpty && decide (letters.length ≤ 4) && isDigitTail ((name.drop 2).dropWhile isLower)
  else if ['m', 'm', 'c', 'b', 'l', 'k'].isPrefixOf name then
    !digits.isEmpty && decide (digits.length ≤ 3) &&
      match rest.dropWhile isAsciiDigit with
      | [] => true
      | c :: partition => c == 'p' && !partition.isEmpty && isDigitTail partition
  else false

/-- `storage_base_name`: the device of a partition. -/
def baseName (name : List Char) : Option (List Char) :=
  if !validName name then none
  else if ['s', 'd'].isPrefixOf name then some (name.take 2 ++ (name.drop 2).takeWhile isLower)
  else some (name.take 6 ++ (name.drop 6).takeWhile (· ≠ 'p'))

/-! ## Bounded lists -/

/-- `storage_attempted` or `storage_suppressed` and its count. -/
structure NameList where
  names : List (List Char)
  bounded : names.length ≤ maxStorageVolumes
  distinct : names.Nodup
deriving DecidableEq

/-- A list with no name. -/
def NameList.empty : NameList := ⟨[], Nat.zero_le _, List.nodup_nil⟩

/-- `storage_list_contains`. -/
def NameList.contains (list : NameList) (name : List Char) : Bool := list.names.contains name

private theorem lawfulBEq_name : LawfulBEq (List Char) := inferInstance

attribute [local instance] lawfulBEq_name in
/-- `storage_list_add`: a name that does not fit is dropped. -/
def NameList.add (list : NameList) (name : List Char) : NameList :=
  if h : list.names.length < maxStorageVolumes ∧ name ∉ list.names then
    ⟨list.names ++ [name], by rw [List.length_append]; exact h.1,
      List.nodup_append.mpr ⟨list.distinct, List.nodup_singleton name, fun a ha b hb hab =>
        h.2 (List.mem_singleton.mp hb ▸ hab ▸ ha)⟩⟩
  else list

/-- `storage_list_remove`. -/
def NameList.remove (list : NameList) (name : List Char) : NameList where
  names := list.names.erase name
  bounded := List.length_erase_le.trans list.bounded
  distinct := list.distinct.erase name

/-- The loop at the end of a refresh: the names that are still there stay. -/
def NameList.retain (list : NameList) (present : List (List Char)) : NameList where
  names := list.names.filter present.contains
  bounded := (List.length_filter_le _ _).trans list.bounded
  distinct := list.distinct.filter _

/-- The errors that are recorded for a volume. -/
inductive Fault where
  | mountPath
  | mountReturn (code : Int)
  | mountNotObserved
  | unmountReturn (code : Int)
deriving DecidableEq, Repr

/-- The code of an error. -/
def Fault.code : Fault → String
  | .unmountReturn _ => "HAL_STORAGE_UNMOUNT_FAILED"
  | _ => "HAL_STORAGE_MOUNT_FAILED"

/-- The reason of an error. -/
def Fault.reason : Fault → String
  | .mountPath => "mount-path-unavailable"
  | .mountReturn code => s!"mount-returncode:{code}"
  | .mountNotObserved => "mount-not-observed"
  | .unmountReturn code => s!"umount-returncode:{code}"

/-- `StorageError`. -/
structure StorageError where
  name : List Char
  fault : Fault
deriving DecidableEq

/-- Write the row of a name, at the end if it has none. -/
def setRow (rows : List StorageError) (name : List Char) (fault : Fault) : List StorageError :=
  if rows.any (·.name == name) then
    rows.map fun row => if row.name = name then ⟨name, fault⟩ else row
  else rows ++ [⟨name, fault⟩]

/-- Remove the row of a name. -/
def clearRow (rows : List StorageError) (name : List Char) : List StorageError :=
  rows.eraseP (·.name == name)

/-- The error of a name. -/
def faultOf (rows : List StorageError) (name : List Char) : Option Fault :=
  (rows.find? (·.name == name)).map (·.fault)

theorem setRow_names {rows : List StorageError} (h : (rows.map (·.name)).Nodup) (name : List Char)
    (fault : Fault) : ((setRow rows name fault).map (·.name)).Nodup := by
  unfold setRow
  split
  · rw [List.map_map]
    have hnames : ((fun row : StorageError => row.name) ∘
        fun row => if row.name = name then ⟨name, fault⟩ else row) = (·.name) := by
      funext row
      by_cases hrow : row.name = name
      · simp [hrow]
      · simp [hrow]
    rwa [hnames]
  · next hany =>
    rw [List.map_append, List.nodup_append]
    refine ⟨h, List.nodup_singleton _, ?_⟩
    rintro a ha b hb rfl
    obtain ⟨row, hrow, rfl⟩ := List.mem_map.mp ha
    refine hany (List.any_eq_true.mpr ⟨row, hrow, ?_⟩)
    rw [List.map_cons, List.map_nil, List.mem_singleton] at hb
    exact beq_iff_eq.mpr hb

/-- `storage_errors` and its count: one row for each name. -/
structure ErrorTable where
  rows : List StorageError
  bounded : rows.length ≤ maxStorageVolumes
  distinct : (rows.map (·.name)).Nodup
deriving DecidableEq

/-- A table with no row. -/
def ErrorTable.empty : ErrorTable := ⟨[], Nat.zero_le _, List.nodup_nil⟩

/-- `storage_set_error`: a new name is dropped when the table is full. -/
def ErrorTable.set (table : ErrorTable) (name : List Char) (fault : Fault) : ErrorTable :=
  if h : (setRow table.rows name fault).length ≤ maxStorageVolumes then
    ⟨setRow table.rows name fault, h, setRow_names table.distinct name fault⟩
  else table

/-- `storage_clear_error`. -/
def ErrorTable.clear (table : ErrorTable) (name : List Char) : ErrorTable where
  rows := clearRow table.rows name
  bounded := List.length_eraseP_le.trans table.bounded
  distinct := table.distinct.sublist (List.eraseP_sublist.map _)

/-! ## The mount table -/

/-- `STORAGE_PATH_CAPACITY`. -/
def storagePathCapacity : Nat := 384

/-- `fgets` into a buffer of so many bytes. -/
def fgets (capacity : Nat) (stream : Bytes) : Bytes :=
  stream.take (min ((stream.takeWhile (· ≠ 0x0a)).length + 1) (capacity - 1))

/-- What `fgets` reads until the stream ends; each turn takes one unit of fuel and at least
    one byte. -/
def fgetsAll (capacity : Nat) : Nat → Bytes → List Bytes
  | 0, _ => []
  | fuel + 1, stream =>
    if stream.isEmpty then []
    else
      let line := fgets capacity stream
      line :: fgetsAll capacity fuel (stream.drop line.length)

/-- A separator of the fields of a line. -/
def isSeparator (b : UInt8) : Bool := b == 0x20 || b == 0x09 || b == 0x0d || b == 0x0a

/-- The fields of a line that `strtok_r` finds, as many as there is room for. -/
def lineFields (line : Bytes) : List Bytes :=
  (((cText line).splitOnP isSeparator).filter (!·.isEmpty)).take 96

/-- The field after the first `-` that two fields follow. -/
def filesystemOf : List Bytes → Option Bytes
  | mark :: type :: source :: rest =>
    if mark = ascii "-" then some type else filesystemOf (type :: source :: rest)
  | _ => none

/-- Where a device is mounted and with which file system. -/
structure Mount where
  point : List Char
  filesystem : List Char
deriving DecidableEq

/-- What a line says of a device. The mount point is cut to the buffer of the volume before
    it is decoded. -/
def mountOf (majorMinor : List Char) (fields : List Bytes) : Option Mount :=
  -- Ten fields at least, and the number of the device as the third.
  if fields.length < 10 ∨ fields[2]?.map charsOf ≠ some majorMinor then none
  else do
    let filesystem ← filesystemOf (fields.drop 6)
    -- The copy into the volume comes first, so that a long path can end inside of an escape.
    let path ← fields[4]?
    let point ← decodeMountPath (path.take (storagePathCapacity - 1) ++ [0])
    return ⟨charsOf (cText point), charsOf (filesystem.take 31)⟩

/-- `storage_mount_for` in a mount table, if it can be opened. -/
def mountFor (table : Option Bytes) (majorMinor : List Char) : Option Mount :=
  table.bind fun table =>
    ((fgetsAll 2048 table.length table).map lineFields).findSome? (mountOf majorMinor)

/-- `storage_critical_mount`. -/
def criticalMount (table : Option Bytes) (majorMinor : List Char) : Bool :=
  (mountFor table majorMinor).any fun mount =>
    ["/", "/boot", "/usr", "/var", "/opt", "/home"].any (·.toList == mount.point)

/-- `storage_mount_root` with the value of its environment variable. -/
def storageMountRoot (value : Option (List Char)) : List Char :=
  (value.filter fun value => value.head? == some '/' &&
    decide (value.length < storagePathCapacity / 2) && !decide ("/../".toList <:+: value) &&
    !decide ("/./".toList <:+: value) && value != ['/'] && value.getLast? != some '/').getD
      "/media/msys".toList

/-! ## Volumes -/

/-- What a loop of a scan looks up of an entry, and the mount table at that moment. -/
structure EntryLook where
  partition : Bool := false
  dev : Option (List Char)
  mountinfo : Option Bytes := none
deriving DecidableEq

/-- What the environment shows of an entry of the block class: to the first loop of a scan,
    to the checks of the second, and to the rest of the second. The capacity is what
    `statvfs` gives for the mount point. -/
structure BlockEntry where
  name : List Char
  isDir : Bool := true
  first : EntryLook
  second : EntryLook
  transport : Option (List Char)
  usable : Bool := true
  label : List Char := []
  uuid : List Char := []
  size : Option Int := none
  sectorSize : Option Int := none
  readOnly : Option Int := none
  mountinfo : Option Bytes := none
  capacity : Option (Nat × Nat) := none
deriving DecidableEq

/-- What a scan finds: the entries of the block class in the order of `readdir`, and the
    roots that the process environment names. -/
structure BlockClass where
  entries : List BlockEntry
  devRoot : List Char
  mountRoot : Option (List Char)
deriving DecidableEq

/-- `StorageVolume`. -/
structure StorageVolume where
  name : List Char
  source : List Char
  parent : List Char
  transport : List Char
  label : List Char
  uuid : List Char
  majorMinor : List Char
  mountPoint : List Char
  preferredMountPoint : List Char
  filesystem : List Char
  error : Option Fault
  sizeBytes : Nat
  capacity : Option (Nat × Nat)
  readOnly : Bool
  mounted : Bool
  managed : Bool
deriving DecidableEq

/-- The `id` of a volume. -/
def StorageVolume.id (volume : StorageVolume) : List Char := "storage:".toList ++ volume.name

/-- `storage_read_capacity`: the total and what is left of it. -/
def readCapacity (capacity : Option (Nat × Nat)) (mount : Mount) (managed : Bool) :
    Option (Nat × Nat) :=
  if !managed || mount.point.isEmpty then none
  else capacity.map fun x => (x.1, min x.2 x.1)

/-- The size of a volume from its sectors. -/
def sizeBytes (sectors sectorSize : Int) : Nat :=
  if 0 < sectors ∧ 0 < sectorSize ∧ sectors ≤ (2 ^ 64 - 1) / sectorSize then
    (sectors * sectorSize).toNat
  else 0

/-- `list_entries` of the block class. -/
def listEntries (entries : List BlockEntry) : List BlockEntry :=
  ((entries.filter fun e => validText e.name && e.isDir).take maxEntries).insertionSort
    fun a b => a.name ≤ b.name
where
  /-- `valid_name`. -/
  validText (name : List Char) : Bool :=
    name.head?.any isAlnumC && name.all (fun c => isAlnumC c || c == '.' || c == '_' || c == '-') &&
      decide (name.length ≤ 128)

/-- The first loop of `storage_scan`: the devices that have a partition. -/
def partitionedBases (listed : List BlockEntry) : List (List Char) :=
  listed.filterMap fun entry => if entry.first.partition then baseName entry.name else none

/-- The first loop of `storage_scan`: the devices that carry a critical mount. -/
def criticalBases (listed : List BlockEntry) : List (List Char) :=
  listed.filterMap fun entry =>
    if entry.first.dev.any (criticalMount entry.first.mountinfo) then baseName entry.name else none

/-- The path of the device node of an entry. -/
def sourceOf (found : BlockClass) (entry : BlockEntry) : List Char :=
  found.devRoot ++ '/' :: entry.name

/-- The volume that the second loop of `storage_scan` makes of an entry. -/
def describe (errors : ErrorTable) (found : BlockClass) (entry : BlockEntry)
    (base transport majorMinor : List Char) : StorageVolume :=
  let mountRoot := storageMountRoot found.mountRoot
  let mount := mountFor entry.mountinfo majorMinor
  let managed := mount.any fun mount => (mountRoot ++ ['/']).isPrefixOf mount.point
  { name := entry.name
    source := sourceOf found entry
    parent := base
    transport := transport
    label := entry.label
    uuid := entry.uuid
    majorMinor := majorMinor
    mountPoint := (mount.map (·.point)).getD []
    preferredMountPoint := (mountRoot ++ '/' :: entry.name).take (storagePathCapacity - 1)
    filesystem := (mount.map (·.filesystem)).getD []
    error := faultOf errors.rows entry.name
    sizeBytes := sizeBytes (entry.size.getD 0) (entry.sectorSize.getD 512)
    capacity := mount.bind (readCapacity entry.capacity · managed)
    readOnly := decide (entry.readOnly.getD 0 ≠ 0)
    mounted := mount.isSome
    managed := managed }

/-- The volume of an entry, when it is one. -/
def volumeOf (errors : ErrorTable) (found : BlockClass) (partitioned critical : List (List Char))
    (entry : BlockEntry) : Option StorageVolume :=
  match baseName entry.name, entry.transport, entry.second.dev with
  | some base, some transport, some majorMinor =>
    -- Whole disks with partitions, disks the system runs from and unusable nodes are left out.
    if !entry.second.partition && partitioned.contains base || critical.contains base ||
      !majorMinor.contains ':' || criticalMount entry.second.mountinfo majorMinor ||
      decide (storagePathCapacity ≤ (sourceOf found entry).length) || !entry.usable then none
    else some (describe errors found entry base transport majorMinor)
  | _, _, _ => none

/-- `storage_scan`. -/
def scan (errors : ErrorTable) (found : BlockClass) : List StorageVolume :=
  let listed := listEntries found.entries
  (listed.filterMap
    (volumeOf errors found (partitionedBases listed) (criticalBases listed))).take
      maxStorageVolumes

/-! ## Steps -/

/-- The globals of the storage role. -/
structure Memory where
  revision : UInt64 := 0
  cache : List StorageVolume := []
  autoMount : Bool := true
  configLoaded : Bool := false
  configError : Option String := none
  attempted : NameList := .empty
  suppressed : NameList := .empty
  errors : ErrorTable := .empty
deriving DecidableEq

/-- Who asks for a command: the policy of a refresh or a request. -/
inductive Caller where
  | policy
  | request
deriving DecidableEq, Repr

/-- The argument vectors of `storage_run`. -/
inductive Command where
  | mount (options : String) (source target : List Char)
  | umount (target : List Char)
deriving DecidableEq

/-- What a scan is for: to apply the mount policy, to fill the cache, or to confirm
    that a volume was mounted. -/
inductive Purpose where
  | policy
  | cache
  | confirm (name : List Char)
deriving DecidableEq

/-- The requests about volumes; any other request leaves the memory as it is. -/
inductive StorageRequest where
  | listVolumes (refresh : Bool)
  | getState
  | refresh
  | mount (identifier : List Char) (readOnly : Bool)
  | unmount (identifier : List Char)
  | setConfig (autoMount : Bool)
  | other
deriving DecidableEq

/-- `DispatchResult` of a request that fails. -/
inductive StorageRefusal where
  | badPayload
  | unavailable
  | mountFailed
  | unmountFailed
  | notManaged
  | persistence
deriving DecidableEq, Repr

/-- The result of a request: the snapshot of the memory, a volume, or a refusal. -/
inductive StorageReply where
  | snapshot (memory : Memory)
  | volume (revision : UInt64) (volume : StorageVolume)
  | other
  | refused (refusal : StorageRefusal)
deriving DecidableEq

/-- What the loop waits for. -/
inductive Incoming where
  | timeout
  | uevent (name : Option (List Char))
  | call (request : StorageRequest)
deriving DecidableEq

/-- The steps of the process. -/
inductive StorageOp where
  | next
  | loadConfig
  | saveConfig (memory : Memory) (autoMount : Bool)
  | scan (purpose : Purpose) (memory : Memory)
  | usable (caller : Caller) (name source : List Char)
  | prepareTarget (caller : Caller) (name target : List Char)
  | run (caller : Caller) (name : List Char) (command : Command)
  | reply (reply : StorageReply)
  | changed (memory : Memory)
deriving DecidableEq

/-- The answer of a step. The configuration is the environment variable and the text
    of the file; a command answers its return code. -/
abbrev StorageOp.Ret : StorageOp → Type
  | .next => Incoming
  | .loadConfig => Option String × Option (List Char)
  | .saveConfig _ _ => Bool
  | .scan _ _ => BlockClass
  | .usable _ _ _ => Bool
  | .prepareTarget _ _ _ => Bool
  | .run _ _ _ => Int
  | .reply _ => Bool
  | .changed _ => Unit

/-- The steps and their answers. -/
abbrev storageSig : Sig := ⟨StorageOp, StorageOp.Ret⟩

/-- A function of the storage role. -/
abbrev StorageM := Proc storageSig Memory

/-- One step. -/
def call (o : StorageOp) : StorageM o.Ret := ask (S := storageSig) o

/-! ## Commands -/

/-- `storage_set_error`. -/
def setError (name : List Char) (fault : Fault) : StorageM Unit :=
  modify fun m => { m with errors := m.errors.set name fault }

/-- `storage_clear_error`. -/
def clearError (name : List Char) : StorageM Unit :=
  modify fun m => { m with errors := m.errors.clear name }

/-- The `-o` argument of a mount. -/
def mountOptions (readOnly : Bool) : String :=
  if readOnly then "nosuid,nodev,noexec,ro" else "nosuid,nodev,noexec"

/-- The checks before a mount: `storage_source_usable` and `storage_prepare_target`. -/
def prepareMount (caller : Caller) (volume : StorageVolume) : StorageM Bool := do
  if ← call (.usable caller volume.name volume.source) then
    call (.prepareTarget caller volume.name volume.preferredMountPoint)
  else return false

/-- `storage_mount_volume`: whether the volume is mounted now. -/
def mountVolume (caller : Caller) (volume : StorageVolume) (readOnly : Bool) : StorageM Bool := do
  if volume.mounted then return true
  else
    match ← prepareMount caller volume with
    | false =>
      setError volume.name .mountPath
      return false
    | true =>
      let options := mountOptions (readOnly || volume.readOnly)
      let result ← call
        (.run caller volume.name (.mount options volume.source volume.preferredMountPoint))
      if result ≠ 0 then
        setError volume.name (.mountReturn result)
        return false
      else
        clearError volume.name
        return true

/-- What `storage_unmount_volume` returns. -/
inductive UnmountResult where
  | done
  | failed
  | notManaged
deriving DecidableEq, Repr

/-- `storage_unmount_volume`. -/
def unmountVolume (volume : StorageVolume) : StorageM UnmountResult := do
  if !volume.mounted then return .done
  -- Only what is mounted below the root of the service is unmounted.
  else if !volume.managed || volume.mountPoint.head? ≠ some '/' then return .notManaged
  else
    let result ← call (.run .request volume.name (.umount volume.mountPoint))
    if result ≠ 0 then
      setError volume.name (.unmountReturn result)
      return .failed
    else
      clearError volume.name
      -- The policy leaves a volume alone that a request has unmounted.
      modify fun m => { m with suppressed := m.suppressed.add volume.name }
      return .done

/-! ## Refresh -/

/-- What the text of the configuration says. -/
def configSetting (text : List Char) : Option Bool :=
  if "\"auto_mount\":true".toList <:+: text then some true
  else if "\"auto_mount\":false".toList <:+: text then some false
  else none

/-- The memory with a configuration that was read. -/
def Memory.configured (m : Memory) (environment : Option String) (text : Option (List Char)) :
    Memory :=
  -- The environment gives the default, and the file overrides it.
  let initial := match environment with
    | some value => value ≠ "0" && value ≠ "false"
    | none => m.autoMount
  { m with
    configLoaded := true
    autoMount := (text.bind configSetting).getD initial
    configError := if text.any fun text => (configSetting text).isNone then some "config-invalid"
      else m.configError }

/-- `storage_load_config`. -/
def loadConfig : StorageM Unit := do
  if (← get).configLoaded then return ()
  else
    let config ← call .loadConfig
    modify (·.configured config.1 config.2)

/-- `storage_scan` with the errors of the memory. -/
def scanVolumes (purpose : Purpose) : StorageM (List StorageVolume) := do
  let m ← get
  let found ← call (.scan purpose m)
  return scan m.errors found

/-- Whether the policy leaves a volume alone. -/
def Memory.skips (m : Memory) (volume : StorageVolume) : Bool :=
  volume.mounted || m.attempted.contains volume.name || m.suppressed.contains volume.name

/-- The loop of `storage_refresh` over the volumes of the first scan. -/
def mountAll : List StorageVolume → StorageM Unit
  | [] => return ()
  | volume :: volumes => do
    let m ← get
    if m.skips volume then mountAll volumes
    else
      -- Noted before the command, so that a mount that fails is not tried again.
      modify fun m => { m with attempted := m.attempted.add volume.name }
      let _ ← mountVolume .policy volume volume.readOnly
      mountAll volumes

/-- The end of `storage_refresh`: the lists are pruned and the cache is replaced. -/
def Memory.observed (m : Memory) (volumes : List StorageVolume) : Memory :=
  let present := volumes.map (·.name)
  { m with
    suppressed := m.suppressed.retain present
    attempted := m.attempted.retain present
    cache := volumes
    revision := if m.cache = volumes then m.revision else m.revision + 1 }

/-- The end of `storage_refresh` as a step. -/
def observe (volumes : List StorageVolume) : StorageM Unit := modify (·.observed volumes)

/-- `storage_refresh`: whether the volumes changed. -/
def refresh (purpose : Purpose) : StorageM Bool := do
  loadConfig
  let volumes ← scanVolumes purpose
  let m ← get
  if purpose = .policy ∧ m.autoMount then
    mountAll volumes
    -- The second scan shows what the commands have changed.
    let volumes ← scanVolumes .cache
    observe volumes
    return decide (m.cache ≠ volumes)
  else
    observe volumes
    return decide (m.cache ≠ volumes)

/-! ## Requests -/

/-- `storage_request_id`: the name of the volume. -/
def requestName (identifier : List Char) : Option (List Char) :=
  if "storage:".toList.isPrefixOf identifier && validName (identifier.drop 8) then
    some (identifier.drop 8)
  else none

/-- `storage_find`. -/
def find (volumes : List StorageVolume) (name : List Char) : Option StorageVolume :=
  volumes.find? (·.name == name)

/-- `build_storage_list`. -/
def buildList (fresh : Bool) : StorageM StorageReply := do
  if fresh then
    let _ ← refresh .policy
  return .snapshot (← get)

/-- The part of `build_storage_mount` after the command. -/
def confirmMount (name : List Char) : StorageM StorageReply := do
  modify fun m => { m with suppressed := m.suppressed.remove name }
  let _ ← refresh (.confirm name)
  let m ← get
  -- A mount that is not observed counts as a failure.
  match (find m.cache name).filter (·.mounted) with
  | some volume => return .volume m.revision volume
  | none =>
    setError name .mountNotObserved
    let _ ← refresh .cache
    return .refused .mountFailed

/-- `build_storage_mount`. -/
def buildMount (identifier : List Char) (readOnly : Bool) : StorageM StorageReply := do
  match requestName identifier with
  | none => return .refused .badPayload
  | some name =>
    let _ ← refresh .cache
    match find (← get).cache name with
    | none => return .refused .unavailable
    | some volume =>
      if ← mountVolume .request volume readOnly then confirmMount name
      else
        let _ ← refresh .cache
        return .refused .mountFailed

/-- `build_storage_unmount`. -/
def buildUnmount (identifier : List Char) : StorageM StorageReply := do
  match requestName identifier with
  | none => return .refused .badPayload
  | some name =>
    let _ ← refresh .cache
    match find (← get).cache name with
    | none => return .refused .unavailable
    | some volume =>
      match ← unmountVolume volume with
      | .notManaged => return .refused .notManaged
      | .failed =>
        let _ ← refresh .cache
        return .refused .unmountFailed
      | .done =>
        let _ ← refresh .cache
        let m ← get
        -- So does an unmount that is not observed.
        match (find m.cache name).filter (!·.mounted) with
        | some volume => return .volume m.revision volume
        | none => return .refused .unmountFailed

/-- The memory after the configuration was saved. -/
def Memory.withAutoMount (m : Memory) (enabled : Bool) : Memory :=
  { m with
    revision := if m.autoMount ≠ enabled ∨ m.configError.isSome then m.revision + 1 else m.revision
    -- The policy that is switched on tries every volume again.
    attempted := if enabled && !m.autoMount then .empty else m.attempted
    autoMount := enabled
    configError := none }

/-- `build_storage_config`. -/
def buildConfig (enabled : Bool) : StorageM StorageReply := do
  if ← call (.saveConfig (← get) enabled) then
    modify (·.withAutoMount enabled)
    buildList enabled
  else
    modify fun m => { m with configError := some "config-write-failed" }
    return .refused .persistence

/-- `dispatch`. -/
def dispatch : StorageRequest → StorageM StorageReply
  | .listVolumes fresh => buildList fresh
  | .getState => buildList false
  | .refresh => buildList true
  | .mount identifier readOnly => buildMount identifier readOnly
  | .unmount identifier => buildUnmount identifier
  | .setConfig enabled => buildConfig enabled
  | .other => return .other

/-- `process_call`: whether the reply was sent. -/
def processCall (request : StorageRequest) : StorageM Bool := do
  let before := (← get).revision
  let reply ← dispatch request
  let sent ← call (.reply reply)
  let m ← get
  -- Only a reply that was sent is followed by the event.
  if sent ∧ m.revision ≠ before then call (.changed m)
  return sent

/-- A refresh of the loop, with the event for a change. -/
def refreshAndTell : StorageM Unit := do
  if ← refresh .policy then call (.changed (← get))

/-- A turn of the loop of `run_component`: whether there is another one. -/
def turn : StorageM Bool := do
  match ← call .next with
  | .timeout =>
    refreshAndTell
    return true
  | .uevent name =>
    -- What happened to a volume lets the policy try it again.
    if let some name := name then
      modify fun m => { m with attempted := m.attempted.remove name }
    refreshAndTell
    return true
  | .call request => processCall request

end MsysHal.Native.Storage
