import FlightGuard.Document.Decoder

/-!
# Stored files

A file is absent, a folder, or some bytes.  Loading a document from a path can fail because the
file gives no text or because the text gives no value; either failure names the path.
-/

namespace FlightGuard

/-- What is found at a path. -/
inductive StoredFile where
  | absent
  | folder
  | content (bytes : ByteArray)

/-- Why a file gives no text. -/
inductive ReadFailure where
  | notFound
  | isFolder
  | notText
deriving DecidableEq, Repr

/-- The text of a file, which must be UTF-8. -/
def StoredFile.readText : StoredFile → Except ReadFailure String
  | .absent => .error .notFound
  | .folder => .error .isFolder
  | .content bytes =>
      match String.fromUTF8? bytes with
      | some text => .ok text
      | none => .error .notText

theorem StoredFile.readText_toUTF8 (text : String) :
    (StoredFile.content text.toUTF8).readText = .ok text := by
  have decoded : String.fromUTF8? text.toUTF8 = some text := dif_pos text.isValidUTF8
  rw [readText, decoded]

/-- Why a path gives no value. -/
inductive LoadError where
  | unreadable (path : String) (failure : ReadFailure)
  | unparsable (path : String) (fault : Fault)
deriving DecidableEq, Repr

/-- The text of a failure; the wording of the cause is the caller's. -/
def LoadError.message (cause : String) : LoadError → String
  | .unreadable path _ => "cannot read " ++ path ++ ": " ++ cause
  | .unparsable path _ => "cannot parse " ++ path ++ ": " ++ cause

/-- Reads the value that a file holds. -/
def StoredFile.load {Value : Type} (file : StoredFile) (path : String)
    (decoder : Decoder Value) : Except LoadError Value :=
  match file.readText with
  | .error failure => .error (.unreadable path failure)
  | .ok text =>
      match decoder.ofText text with
      | .error fault => .error (.unparsable path fault)
      | .ok value => .ok value

/-- The files of a working directory; a path leads to a folder when a file lies below it. -/
structure Storage where
  files : List (String × StoredFile)

/-- What is found at a path of a working directory. -/
def Storage.find (storage : Storage) (path : String) : StoredFile :=
  match storage.files.lookup path with
  | some file => file
  | none =>
      if path.isEmpty then .absent
      else if storage.files.any fun entry => (path ++ "/").toList.isPrefixOf entry.1.toList then
        .folder
      else .absent

end FlightGuard
