import TaskRouting.Fault
import TaskRouting.Json.Printer
import TaskRouting.Json.Reader
import TaskRouting.Response.Record
/-!
Where records of responses are kept: in memory, or as JSON files in a
directory.

A record has an identifier of its own, by which its file is named; it is
written indented and read back as a whole. What happens to a file between
writing and reading is not up to the store: it may be gone, or hold something
that is no record.
-/

namespace TaskRouting

/-- Whether two records are the same, as far as they can be written down. -/
def StoredResponse.same (a b : StoredResponse) : Bool :=
  a.toJson .stored == b.toJson .stored

/-- Records in memory, the earliest first. -/
structure MemoryStore where
  records : List StoredResponse

namespace MemoryStore

/-- A store without records. -/
def empty : MemoryStore := ⟨[]⟩

/-- Puts a record after those that are there. -/
def keep (s : MemoryStore) (r : StoredResponse) : MemoryStore :=
  ⟨s.records ++ [r]⟩

end MemoryStore

/-- A directory of records. -/
structure FileStore where
  /-- Why the directory cannot be made, if it cannot. -/
  blocked : Option String
  /-- The texts of the files, by the identifiers of the records. -/
  files : Table String String

namespace FileStore

/-- A directory without files, which can be made. -/
def empty : FileStore := ⟨none, []⟩

/-- Writes the file of a record. -/
def write (s : FileStore) (id : RecordId) (text : String) : FileStore :=
  { s with files := s.files.insert id.text text }

/-- Puts a text in place of a record; none where there is no directory for its
file. -/
def overwrite? (s : FileStore) (id : RecordId) (text : String) :
    Option FileStore :=
  match s.blocked with
  | some _ => none
  | none => some (s.write id text)

/-- Takes the file of a record away. -/
def remove (s : FileStore) (id : RecordId) : FileStore :=
  { s with files := s.files.erase id.text }

/-- The text of a record. -/
def recordText (r : StoredResponse) : String := (r.toJson .stored).pretty 0

/-- Writes the record to its file, unless the directory cannot be made. -/
def keep (s : FileStore) (r : StoredResponse) : Except StoreError FileStore :=
  match s.blocked with
  | some reason => .error (.directory reason)
  | none => .ok (s.write r.id (recordText r))

/-- Reads a record back. -/
def load (s : FileStore) (id : RecordId) : Except StoreError StoredResponse :=
  match s.files.get? id.text with
  -- A file that is not there fails in the way of one that cannot be written.
  | none => .error .write
  | some text =>
    match (Json.readAs? StoredResponse.outline text).bind
      StoredResponse.ofJson? with
    | none => .error .serialization
    | some r => .ok r

end FileStore

end TaskRouting
