import Delimited.Source.Basic

/-!
# Files as sources

A path holds nothing, a directory, or a regular file. A directory opens like a file, and every
read of it fails.
-/

namespace Delimited

/-- Why a file cannot be opened or read. -/
inductive FileError where
  | notFound
  | isDirectory
  deriving DecidableEq, Repr

/-- The wording of a failure, with its number in the system. -/
def FileError.message : FileError → String
  | .notFound => "No such file or directory (os error 2)"
  | .isDirectory => "Is a directory (os error 21)"

/-- What is found at a path. -/
inductive PathEntry where
  | missing
  | directory
  | regular (bytes : List UInt8)
  deriving DecidableEq, Repr

/-- What is open: a file with the bytes not yet read, or a directory. Specification 10.4,
`ReadSource` over a file. -/
inductive FileHandle where
  | regular (unread : List UInt8)
  | directory
  deriving DecidableEq, Repr

namespace FileHandle

/-- Reads the next byte of a regular file. -/
def read : FileHandle → Answer FileError × FileHandle
  | .directory => (.stop (.failure .isDirectory), .directory)
  | .regular [] => (.stop .done, .regular [])
  | .regular (b :: unread) => (.byte b, .regular unread)

/-- The number of bytes not yet read. -/
def unread : FileHandle → Nat
  | .regular bytes => bytes.length
  | .directory => 0

theorem unread_read {s t : FileHandle} {b : UInt8} (h : s.read = (.byte b, t)) :
    t.unread < s.unread := by
  unfold read at h
  split at h <;> cases h
  exact Nat.lt_succ_self _

instance : Source FileHandle FileError where
  read := read
  left := unread
  left_read := unread_read

end FileHandle

/-- Opens what is found at a path, from its beginning. Specification 10.4, `open` of
`FileProvider`. -/
def PathEntry.openFile : PathEntry → Except FileError FileHandle
  | .missing => .error .notFound
  | .directory => .ok .directory
  | .regular bytes => .ok (.regular bytes)

end Delimited
