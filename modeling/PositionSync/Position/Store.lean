import PositionSync.Error
import PositionSync.Files.System
import PositionSync.Position.Snapshot

/-!
# The position store

A store is a table together with the file that keeps it. The file is replaced as a whole: the new one
is written under a temporary name and then renamed, so that a failure up to there leaves the old one in
place. Whether its new name is durable is asked for last. A store with the empty path keeps nothing.
-/

namespace PositionSync

/-- How the system classifies a fault. -/
inductive FaultKind where
  | permissionDenied
  | unsupported
  | other
deriving DecidableEq

structure StorageFault where
  kind : FaultKind
  message : String
deriving DecidableEq

/-- What the storage below the file system does with one write. -/
inductive Storage where
  | sound
  /-- Only some octets find room. -/
  | full (kept : Nat) (message : String)
  /-- The octets of the file cannot be made durable. -/
  | fileUnsynced (message : String)
  /-- The directory cannot be opened for making the name of the file durable. -/
  | directoryUnopened (fault : StorageFault)
  /-- The name of the file cannot be made durable. -/
  | directoryUnsynced (fault : StorageFault)
deriving DecidableEq, Inhabited

/-- The moment of a write: the time that is written into the file, and what the storage does then. -/
structure Moment where
  time : Timestamp
  storage : Storage
deriving DecidableEq, Inhabited

def Moment.sound (time : Timestamp) : Moment := ⟨time, .sound⟩

/-- A time alone stands for a moment at which nothing fails. -/
instance : Coe Timestamp Moment := ⟨Moment.sound⟩

/-- A table and the path of its file. -/
structure Store where
  path : Path
  table : PositionTable
deriving DecidableEq

namespace Store

/-- The store of a path, before anything has been read. -/
def new (path : Path) : Store := ⟨path, .empty⟩

def inMemory : Store := new ⟨[]⟩

def isInMemory (store : Store) : Bool := store.path.isEmpty

def hasFile (store : Store) (files : FileSystem) : Bool :=
  !store.isInMemory && files.pathExists store.path

/-- The table in the file of the store. Without a file it is empty. -/
def storedTable (store : Store) (files : FileSystem) : Except Error PositionTable :=
  if store.hasFile files then
    match files.readChars store.path with
    | .error fault => .error (.state ("Failed to read position file: " ++ fault.message))
    | .ok chars =>
      match Snapshot.decode chars with
      | .error fault => .error (.state ("Failed to parse position file: " ++ fault.message))
      | .ok table => .ok table
  else .ok .empty

def load (store : Store) (files : FileSystem) : Except Error Store :=
  (store.storedTable files).map fun table => { store with table }

def directory (store : Store) : Path :=
  match store.path.parent? with
  | some parent => if parent.isEmpty then .ofText "." else parent
  | none => .ofText "."

/-- The name under which the file is written at first. -/
def temporaryPath (store : Store) : Path := store.path.withExtension "tmp"

/-- An error of writing the file. -/
def failure {α : Type} (step message : String) : Except Error α :=
  .error (.persist (step ++ ": " ++ message))

/-- Write octets under the temporary name. What could be written stays there also on failure. -/
def writeTemporary (store : Store) (storage : Storage) (files : FileSystem)
    (octets : List UInt8) : FileSystem × Except Error Unit :=
  match files.write store.temporaryPath [] with
  | .error fault => (files, failure "Failed to create temp file" fault.message)
  | .ok created =>
    let filled (written : List UInt8) : FileSystem :=
      (created.write store.temporaryPath written).toOption.getD created
    match storage with
    | .full kept message =>
      (filled (octets.take kept), failure "Failed to write position file" message)
    | .fileUnsynced message =>
      (filled octets, failure "Failed to sync position file" message)
    | _ => (filled octets, .ok ())

def replaceFile (store : Store) (storage : Storage) (files : FileSystem)
    (octets : List UInt8) : FileSystem × Except Error Unit :=
  match store.writeTemporary storage files octets with
  | (written, .error error) => (written, .error error)
  | (written, .ok ()) =>
    match written.rename store.temporaryPath store.path with
    | .ok renamed => (renamed, .ok ())
    | .error fault => (written, failure "Failed to rename position file" fault.message)

def removeTemporary (store : Store) (files : FileSystem) : FileSystem :=
  (files.removeFile store.temporaryPath).toOption.getD files

/-- Make the name of a file that has been replaced durable. A system that does not permit this, or does
not support it, is taken to have done it. -/
def syncDirectory (store : Store) (storage : Storage) : Except Error Unit :=
  match storage with
  | .directoryUnopened ⟨kind, message⟩ =>
    if kind = .permissionDenied then .ok ()
    else failure ("Failed to open store directory '" ++ store.directory.text ++ "'") message
  | .directoryUnsynced ⟨kind, message⟩ =>
    if kind = .other then failure "Failed to sync store directory" message else .ok ()
  | _ => .ok ()

/-- Write the table, listed in some order, to the file. On failure the temporary file is removed, but
what fails after the file has been replaced leaves the new one in place. -/
def persistListed (store : Store) (moment : Moment) (listing : List (Partition × Offset))
    (files : FileSystem) : FileSystem × Except Error Unit :=
  if store.isInMemory then (files, .ok ())
  else match files.makeDirectories store.directory with
  | (ready, .error fault) =>
    (ready, failure "Failed to create store directory" fault.message)
  | (ready, .ok ()) =>
    match store.replaceFile moment.storage ready (Snapshot.encodeListed moment.time listing) with
    | (written, .error error) => (store.removeTemporary written, .error error)
    | (replaced, .ok ()) => (replaced, store.syncDirectory moment.storage)

def persist (store : Store) (moment : Moment) (files : FileSystem) :
    FileSystem × Except Error Unit :=
  store.persistListed moment store.table.toList files

def get? (store : Store) (partition : Partition) : Option Offset := store.table.get? partition

def put (store : Store) (partition : Partition) (offset : Offset) : Store :=
  { store with table := store.table.insert partition offset }

def putAll (store : Store) (positions : PositionTable) : Store :=
  { store with table := store.table.insertAll positions.toList }

def remove (store : Store) (partition : Partition) : Store :=
  { store with table := store.table.erase partition }

def removeAll (store : Store) (partitions : List Partition) : Store :=
  { store with table := store.table.eraseAll partitions }

/-- Fold a delivered table in. The flag tells whether the table is now different. -/
def merge (store : Store) (incoming : PositionTable) : Store × Bool :=
  let (table, changed) := store.table.merge incoming.toList
  ({ store with table }, changed)

end Store

end PositionSync
