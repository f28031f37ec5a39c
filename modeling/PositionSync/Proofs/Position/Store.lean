import PositionSync.Position.Store
import PositionSync.Proofs.Files.System
import PositionSync.Proofs.Position.Snapshot
import PositionSync.Proofs.Text.Utf8

/-!
# A written table is read back

When writing a table succeeds, the path of its store leads to a file with the written octets, and every
store with this path reads the table from there.
-/

namespace PositionSync

theorem FileSystem.pathExists_of_read {files : FileSystem} {path : Path} {octets : List UInt8}
    (read : files.read path = .ok octets) : files.pathExists path = true := by
  rw [FileSystem.read] at read
  rw [pathExists]
  cases found : files.lookup path with
  | error fault => simp [found, bind, Except.bind] at read
  | ok node => rfl

namespace Store

variable {store : Store} {storage : Storage} {moment : Moment}
  {listing : List (Partition × Offset)} {files after : FileSystem}

theorem leads_of_writeTemporary {octets : List UInt8}
    (writes : store.writeTemporary storage files octets = (after, .ok ())) :
    ∃ target number, after.Leads store.temporaryPath target number ∧
      after.octets number = octets := by
  rw [writeTemporary] at writes
  cases creates : files.write store.temporaryPath [] with
  | error fault =>
      rw [creates] at writes
      cases congrArg Prod.snd writes
  | ok created =>
      obtain ⟨target, number, leads, -⟩ := FileSystem.leads_of_write creates
      simp only [creates, leads.write] at writes
      refine ⟨target, number, ?_⟩
      cases storage with
      | full | fileUnsynced => cases congrArg Prod.snd writes
      | sound | directoryUnopened | directoryUnsynced =>
          obtain rfl : _ = after := congrArg Prod.fst writes
          exact ⟨leads.fill number octets, created.octets_fill_self number octets⟩

theorem leads_of_replaceFile {octets : List UInt8}
    (replaces : store.replaceFile storage files octets = (after, .ok ())) :
    ∃ target number, after.Leads store.path target number ∧ after.octets number = octets := by
  rw [replaceFile] at replaces
  split at replaces
  · nomatch congrArg Prod.snd replaces
  · next written writes =>
    obtain ⟨origin, number, leads, filled⟩ := leads_of_writeTemporary writes
    split at replaces
    · next renamed renames =>
      obtain rfl : renamed = after := congrArg Prod.fst replaces
      obtain ⟨target, leadsNow, sameOctets⟩ := FileSystem.leads_of_rename renames leads
      exact ⟨target, number, leadsNow, sameOctets.trans filled⟩
    · nomatch congrArg Prod.snd replaces

theorem read_of_replaceFile {octets : List UInt8}
    (replaces : store.replaceFile storage files octets = (after, .ok ())) :
    after.read store.path = .ok octets := by
  obtain ⟨target, number, leads, filled⟩ := leads_of_replaceFile replaces
  rw [leads.read, filled]

/-- Once a table has been written, its file holds the octets of the table. -/
theorem read_of_persistListed (hasPath : store.isInMemory = false)
    (persists : store.persistListed moment listing files = (after, .ok ())) :
    after.read store.path = .ok (Snapshot.encodeListed moment.time listing) := by
  rw [persistListed, hasPath] at persists
  simp only [Bool.false_eq_true, if_false] at persists
  split at persists
  · nomatch congrArg Prod.snd persists
  · split at persists
    · nomatch congrArg Prod.snd persists
    · next replaced replaces =>
      obtain rfl : replaced = after := congrArg Prod.fst persists
      exact read_of_replaceFile replaces

theorem storedTable_of_read {savedAt : Timestamp} (hasPath : store.isInMemory = false)
    (read : files.read store.path = .ok (Snapshot.encodeListed savedAt listing)) :
    store.storedTable files = .ok (SortedMap.ofList listing) := by
  have hasFile : store.hasFile files = true := by
    simp [Store.hasFile, hasPath, FileSystem.pathExists_of_read read]
  have readChars : files.readChars store.path =
      .ok ((Snapshot.listedValue savedAt listing).prettyChars 0) := by
    simp only [FileSystem.readChars, read, bind, Except.bind, Snapshot.encodeListed,
      Utf8.chars?_encodeChars]
    rfl
  simp only [storedTable, hasFile, if_true, readChars, Snapshot.decode_listed]

theorem load_of_read {savedAt : Timestamp} {table : PositionTable} (hasPath : store.isInMemory = false)
    (listed : listing.Perm table.toList)
    (read : files.read store.path = .ok (Snapshot.encodeListed savedAt listing)) :
    store.load files = .ok { store with table } := by
  rw [load, storedTable_of_read hasPath read, SortedMap.ofList_of_perm listed]
  rfl

/-- What one store has written is loaded by every store with the same path, as long as nobody else
writes the file. -/
theorem load_of_persistListed {later : FileSystem} {reader : Store}
    (hasPath : store.isInMemory = false) (listed : listing.Perm store.table.toList)
    (persists : store.persistListed moment listing files = (after, .ok ()))
    (samePath : reader.path = store.path)
    (untouched : later.read store.path = after.read store.path) :
    reader.load later = .ok { reader with table := store.table } := by
  have readerHasPath : reader.isInMemory = false := by
    rw [isInMemory, samePath, ← isInMemory, hasPath]
  have holds := read_of_persistListed hasPath persists
  exact load_of_read readerHasPath listed (by rw [samePath, untouched, holds])

theorem load_of_persist {later : FileSystem} {reader : Store} (hasPath : store.isInMemory = false)
    (samePath : reader.path = store.path) (persists : store.persist moment files = (after, .ok ()))
    (untouched : later.read store.path = after.read store.path) :
    reader.load later = .ok { reader with table := store.table } :=
  load_of_persistListed hasPath .rfl persists samePath untouched

end Store

end PositionSync
