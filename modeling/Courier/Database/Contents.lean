/-
Courier.Database.Contents — files that are databases.

A database begins with a header of a hundred bytes, in which the size of its pages
stands. `contentFault?` says why a file with these bytes is no database that can be used;
of what follows the header only the kind of the first page is looked at. A file that is
empty, or holds a single byte, is a database in which there is nothing yet.
-/
import Courier.Failure
import Courier.Text.Utf8

namespace Courier.Database

open Courier.Text

/-- The bytes that a database begins with. -/
def magic : Bytes := encode "SQLite format 3\x00"

/-- The byte at an offset; behind the end there are zeros. -/
def byteAt (bytes : Bytes) (offset : Nat) : Nat := (bytes.getD offset 0).toNat

/-- The number in the four bytes from an offset on. -/
def wordAt (bytes : Bytes) (offset : Nat) : Nat :=
  (List.range 4).foldl (fun n i => 256 * n + byteAt bytes (offset + i)) 0

/-- The size of a page, as the header gives it. -/
def pageSize (bytes : Bytes) : Nat := 256 * byteAt bytes 16 + 65536 * byteAt bytes 17

/-- The sizes that a page may have. -/
def pageSizes : List Nat := [512, 1024, 2048, 4096, 8192, 16384, 32768, 65536]

/-- The least part of a page that is used. -/
def minUsable : Nat := 480

/-- Whether these are the first bytes of a database. -/
def isHeader (bytes : Bytes) : Bool :=
  magic.isPrefixOf bytes && byteAt bytes 19 ≤ 2 &&
    (bytes.drop 21).take 3 == [64, 32, 32] && pageSizes.contains (pageSize bytes) &&
    minUsable ≤ pageSize bytes - byteAt bytes 20

/-- How many pages a database says it has; nothing if it does not say so reliably. -/
def claimedPages (bytes : Bytes) : Nat :=
  if wordAt bytes 24 = wordAt bytes 92 then wordAt bytes 28 else 0

/-- How many pages a file has, the last one perhaps in part. -/
def countPages (bytes : Bytes) : Nat := (bytes.length + pageSize bytes - 1) / pageSize bytes

/-- The kinds of a page that holds a table. -/
def tablePages : List Nat := [5, 13]

/-- The last format of tables that is known. -/
def maxFormat : Nat := 4

/-- Whether there is nothing yet in a file with these bytes. -/
def isBlankFile (bytes : Bytes) : Bool := bytes.length ≤ 1

/-- Why a file with these bytes cannot be used as a database, if it cannot. -/
def contentFault? (bytes : Bytes) : Option StorageFault :=
  if isBlankFile bytes then none
  else if !isHeader bytes then some .notADatabase
  else if countPages bytes < claimedPages bytes then some .malformed
  else if maxFormat < wordAt bytes 44 then some .unknownFormat
  else if !tablePages.contains (byteAt bytes 100) then some .malformed
  else if 2 < byteAt bytes 18 then some .readOnly
  else none

end Courier.Database
